import ActiveBgp.Peering.Filters
import ActiveBgp.Frrp.Traceroute

namespace ActiveBgp.Peering.Announcement

open ActiveBgp.Python ActiveBgp.Shell ActiveBgp.Data.Exploration ActiveBgp.Peering.PeeringPrefix
open ActiveBgp.Frrp (Asn)

/-! # Announcements with poisons

`make_announcement` passes the poisons as one argument with quotes around it, as
if a shell were to remove them.  There is no shell between the program and the
script, so the quotes get into the filter.
-/

/-- What `isinstance` tells apart. -/
inductive AsSeq where
  | set (poisons : Finset Asn)
  | int (asn : Asn)
  | other

def AsSeq.toSet : AsSeq → Except PyError (Finset Asn)
  | .set poisons => .ok poisons
  | .int asn => .ok {asn}
  | .other => .error (.valueError "AS Seq is not a list or int!".toList)

/-- The poisons, in the order in which their set iterates. -/
def quoted (poisons : List Asn) : Text := '"' :: (" ".toList.intercalate (poisons.map Text.ofInt) ++ ['"'])

/-- The arguments of `./peering`. -/
def announceArgs (order : Finset Asn → List Asn) (routePrefix mux : Text) : Option (Finset Asn) → List Text
  | some asSeqSet =>
      ["prefix".toList, "announce".toList, "-m".toList, mux, "-p".toList, quoted (order asSeqSet), routePrefix]
  | none => ["prefix".toList, "announce".toList, "-m".toList, mux, routePrefix]

/-- `subprocess.run` returns the exit status; no shell takes part. -/
def runPeering (host : Host) (args : List Text) : Effect Files Nat := fun files =>
  match peering host args { files := files } with
  | .ok _ vars => .ok 0 vars.files
  | .error status vars => .ok status vars.files

/-- A failure of the command ends the program. -/
def makeAnnouncement (host : Host) (order : Finset Asn → List Asn) (routePrefix mux : Text) (asSeq : Option AsSeq) :
    Effect Files Unit := do
  let asSeqSet ← Effect.ofExcept (asSeq.mapM AsSeq.toSet)
  let status ← runPeering host (announceArgs order routePrefix mux asSeqSet)
  if status ≠ 0 then throw .systemExit

/-- The filter that prepends the given texts. -/
def exportFilter (routePrefix : Text) (prepends : List Text) : Text :=
  fileText (("if ( net = ".toList ++ routePrefix ++ " ) then \x7b".toList) :: pathPrepend "47065".toList ::
    (prepends.map pathPrepend ++ ["    accept;".toList, "\x7d".toList]))

section Script

variable {host : Host} {routePrefix mux : Text} {args : List Text} {vars : Variables} {files : Files}

/-- The script announces to the mux that it is called with, or to all of them. -/
def Serves (host : Host) (mux target : Text) : Prop :=
  mux = "all".toList ∧ target ∈ host.mux2dev.keys ∨
    mux = target ∧ mux ≠ "all".toList ∧ orUnset (host.mux2dev.get? mux) ≠ "unset".toList

/-- The prefix is one of those that are configured for the script. -/
structure Allocates (host : Host) (routePrefix : Text) : Prop where
  configured : Configured host routePrefix
  operand : ∃ first ∈ routePrefix.head?, first ≠ '-'

theorem Serves.listed {target : Text} (serves : Serves host mux target) : target ∈ muxes host mux := by
  unfold muxes
  rcases serves with ⟨all, known⟩ | ⟨rfl, single, _⟩
  · rw [if_pos all]
    exact known
  · rw [if_neg single]
    exact List.mem_singleton_self _

theorem Serves.known {target : Text} (serves : Serves host mux target) : Known host mux :=
  serves.imp (fun all => all.1) fun single => single.2.2

/-- An announcement that is accepted goes through, whatever BIRD answers. -/
theorem runPeering_announce (nonempty : args ≠ []) (plain : PlainArgs args) (accepts : Accepts host args) (files : Files) :
    ∃ after, runPeering host ("prefix".toList :: "announce".toList :: args) files = .ok host.birdc after ∧
      ∀ mux ∈ muxes host (optioned args .empty).mux, after.get? (filterfn host (operand args) mux) =
        some (filterText (operand args) (optioned args .empty).settled) := by
  obtain ⟨argument, rest, rfl⟩ := List.exists_cons_of_ne_nil nonempty
  let routePrefix := operand (argument :: rest)
  let vars := optioned (argument :: rest) files
  have allowed := (allowed_files host (argument :: rest) files).mpr accepts.allowed
  obtain ⟨after, done, all⟩ := forEach_doAnnounce (plain_optioned plain files) allowed.compatible host routePrefix
    (muxes host vars.mux)
  have command : subcommand host routePrefix "announce".toList vars = exit host.birdc after := by
    unfold subcommand
    rw [bind_result]
    simp only [get_apply, if_true]
    rw [bind_result, done]
  have ran : peering host ("prefix".toList :: "announce".toList :: argument :: rest) { files := files } =
      exit host.birdc after := by
    simp only [peering, if_true, peeringPrefix]
    rw [bind_result, prepare_accepted plain accepts]
    exact command
  refine ⟨after.files, ?_, fun mux listed => ?_⟩
  · unfold runPeering
    rw [ran, exit]
    by_cases succeeds : host.birdc = 0
    · rw [if_pos succeeds, succeeds]
      rfl
    · rw [if_neg succeeds]
      rfl
  · rw [all, get?_allAnnounced ((optioned_mux _ files).symm ▸ listed), settled_optioned]
    rfl

theorem getopts_announce (notOption : routePrefix.head? ≠ some '-') (mux optarg : Text) :
    getopts letters ["-m".toList, mux, "-p".toList, optarg, routePrefix] =
      ([('m', mux), ('p', optarg)], [routePrefix]) := by
  have m : "-m".toList = ['-', 'm'] := by decide
  have p : "-p".toList = ['-', 'p'] := by decide
  rw [m, p, getopts_option (by decide) (by decide), getopts_option (by decide) (by decide), getopts_operand notOption]

theorem filterText_poisons (given : vars.poisons ≠ []) (origin : vars.origin = "0".toList)
    (communities : vars.communities = []) (fullCommunities : vars.fullCommunities = []) (routePrefix : Text) :
    filterText routePrefix vars.settled = exportFilter routePrefix (splitWords vars.poisons) := by
  have zero : valueOf vars.origin = 0 := origin ▸ valueOf_eq (by decide)
  have kept : vars.settled = vars := by
    have alone : vars.prepended = vars := if_neg fun both => both.2 zero
    rw [Variables.settled, alone]
    exact if_neg fun all => given all.1
  have path : pathLines vars = pathPrepend "47065".toList :: (splitWords vars.poisons).map pathPrepend := if_pos given
  have none : communityLines vars = [] := by
    rw [communityLines, communities, fullCommunities]
    rfl
  rw [kept, filterText, bodyLines, path, none, List.append_nil]
  rfl

/-- The poisons that the script is given become the words of the filter. -/
theorem runPeering_poisons {target optarg : Text} (root : host.root = true) (serves : Serves host mux target)
    (allocated : Allocates host routePrefix) (poisons : optarg ≠ []) (literal : ∀ char ∈ optarg, isSpecial char = false)
    (files : Files) :
    ∃ after, runPeering host
        ["prefix".toList, "announce".toList, "-m".toList, mux, "-p".toList, optarg, routePrefix] files =
          .ok host.birdc after ∧
      after.get? (filterfn host routePrefix target) = some (exportFilter routePrefix (splitWords optarg)) := by
  obtain ⟨first, head, notDash⟩ := allocated.operand
  have notOption : routePrefix.head? ≠ some '-' := by
    rw [Option.mem_def.mp head]
    simpa using notDash
  let args := ["-m".toList, mux, "-p".toList, optarg, routePrefix]
  have parsed : getopts letters args = ([('m', mux), ('p', optarg)], [routePrefix]) := getopts_announce notOption mux optarg
  have named : operand args = routePrefix := by
    rw [operand, parsed]
    cases routePrefix with
    | nil => simp at head
    | cons char rest => rfl
  have options : optioned args .empty = { mux := mux, poisons := optarg, files := .empty } := by
    rw [optioned, parsed]
    rfl
  have plain : PlainArgs args := by
    rw [PlainArgs, parsed]
    exact List.forall_mem_cons.mpr ⟨⟨by simp, by simp, by simp⟩,
      List.forall_mem_singleton.mpr ⟨by simp, by simp, fun _ => literal⟩⟩
  have zero : valueOf "0".toList = 0 := valueOf_eq (by decide)
  have accepts : Accepts host args := by
    refine ⟨root, ?_, ?_, named ▸ allocated.configured⟩
    · rw [parsed]
      exact List.forall_mem_cons.mpr ⟨⟨by simp [letters], by simp, by simp⟩,
        List.forall_mem_singleton.mpr ⟨by simp [letters], by simp, by simp⟩⟩
    · rw [options]
      exact ⟨serves.known, zero.ge, ⟨zero.ge, zero.trans_le (by decide)⟩, fun _ => ⟨zero, zero⟩⟩
  obtain ⟨after, ran, written⟩ := runPeering_announce (List.cons_ne_nil _ _) plain accepts files
  rw [options, named] at written
  refine ⟨after, ran, (written target serves.listed).trans (congrArg some ?_)⟩
  exact filterText_poisons poisons rfl rfl rfl routePrefix

end Script

section Poisons

variable {poisons : List Asn}

theorem ordinary_intercalate (poisons : List Asn) :
    ∀ char ∈ " ".toList.intercalate (poisons.map Text.ofInt), isSpecial char = false := by
  intro char member
  by_contra special
  refine Text.not_mem_intercalate (fun text inside among => ?_) ?_ member
  · obtain ⟨asn, _, rfl⟩ := List.mem_map.mp inside
    exact special (ordinary_numeric (Text.numeric_ofInt asn) char among)
  · rintro rfl
    exact special (by decide)

theorem ordinary_quoted (poisons : List Asn) : ∀ char ∈ quoted poisons, isSpecial char = false := by
  have quote : isSpecial '"' = false := by decide
  intro char member
  rcases List.mem_cons.mp member with rfl | later
  · exact quote
  · rcases List.mem_append.mp later with item | last
    · exact ordinary_intercalate poisons char item
    · rw [List.mem_singleton.mp last]
      exact quote

/-- Without the quotes, the script would get the poisons as they are. -/
theorem splitWords_bare (poisons : List Asn) :
    splitWords (" ".toList.intercalate (poisons.map Text.ofInt)) = poisons.map Text.ofInt := by
  refine splitWords_intercalate fun text inside => ?_
  obtain ⟨asn, _, rfl⟩ := List.mem_map.mp inside
  exact ⟨Text.ofInt_ne_nil asn, dark_numeric (Text.numeric_ofInt asn)⟩

theorem splitWords_quoted (poisons : List Asn) : ∃ word others, splitWords (quoted poisons) = ('"' :: word) :: others :=
  splitWords_cons (by decide) _

theorem pathPrepend_cons (char : Char) (tail : Text) : pathPrepend (char :: tail) =
    "    bgp_path.prepend(".toList ++ char :: (tail ++ ");".toList) :=
  (List.append_assoc ..).trans (congrArg _ List.cons_append)

theorem exportFilter_quoted_ne (routePrefix word : Text) (others : List Text) {asns : List Asn} (nonempty : asns ≠ []) :
    exportFilter routePrefix (('"' :: word) :: others) ≠ exportFilter routePrefix (asns.map Text.ofInt) := by
  intro same
  obtain ⟨asn, rest, rfl⟩ := List.exists_cons_of_ne_nil nonempty
  obtain ⟨first, digits, number⟩ := List.exists_cons_of_ne_nil (Text.ofInt_ne_nil asn)
  let common := ["if ( net = ".toList ++ routePrefix ++ " ) then \x7b".toList, pathPrepend "47065".toList]
  let ended (rest : List Text) := rest.map pathPrepend ++ ["    accept;".toList, "\x7d".toList]
  have filter (char : Char) (tail : Text) (rest : List Text) : exportFilter routePrefix ((char :: tail) :: rest) =
      fileText (common ++ ("    bgp_path.prepend(".toList ++ char :: (tail ++ ");".toList)) :: ended rest) := by
    have lines : exportFilter routePrefix ((char :: tail) :: rest) =
        fileText (common ++ pathPrepend (char :: tail) :: ended rest) := rfl
    exact lines.trans (congrArg (fun line => fileText (common ++ line :: ended rest)) (pathPrepend_cons char tail))
  rw [List.map_cons, number, filter, filter] at same
  have quote : '"' = first := char_of_fileText same
  refine (Text.numeric_ofInt asn).not_mem (show '"'.isDigit = false ∧ '"' ∉ ['-', '+', '.', 'e'] by decide) ?_
  rw [number, quote]
  exact List.mem_cons_self

end Poisons

/-- The script itself writes the filter with the bare numbers where it is given them. -/
theorem bare_poisons_written {host : Host} (root : host.root = true) {mux target routePrefix : Text}
    (serves : Serves host mux target) (allocated : Allocates host routePrefix) {poisons : List Asn}
    (nonempty : poisons ≠ []) (files : Files) :
    ∃ status after, runPeering host ["prefix".toList, "announce".toList, "-m".toList, mux, "-p".toList,
        " ".toList.intercalate (poisons.map Text.ofInt), routePrefix] files = .ok status after ∧
      after.get? (filterfn host routePrefix target) = some (exportFilter routePrefix (poisons.map Text.ofInt)) := by
  have given : " ".toList.intercalate (poisons.map Text.ofInt) ≠ [] := by
    refine Text.intercalate_ne_nil (by simpa using nonempty) fun text inside => ?_
    obtain ⟨asn, _, rfl⟩ := List.mem_map.mp inside
    exact Text.ofInt_ne_nil asn
  obtain ⟨after, ran, written⟩ := runPeering_poisons root serves allocated given (ordinary_intercalate poisons) files
  exact ⟨_, after, ran, splitWords_bare poisons ▸ written⟩

/-- The filter for an announcement with poisons is written, but never with the bare numbers. -/
theorem poisons_never_bare (order : Finset Asn → List Asn) {host : Host} (root : host.root = true)
    {mux target routePrefix : Text} (serves : Serves host mux target) (allocated : Allocates host routePrefix)
    {poisons : Finset Asn} (nonempty : poisons.Nonempty) (files : Files) :
    ∃ filter, (final (makeAnnouncement host order routePrefix mux (some (.set poisons)) files)).get?
        (filterfn host routePrefix target) = some filter ∧
      ∀ asns : List Asn, asns.toFinset = poisons → filter ≠ exportFilter routePrefix (asns.map Text.ofInt) := by
  obtain ⟨after, ran, written⟩ := runPeering_poisons root serves allocated
    (show quoted (order poisons) ≠ [] by simp [quoted]) (ordinary_quoted (order poisons)) files
  obtain ⟨word, others, split⟩ := splitWords_quoted (order poisons)
  rw [split] at written
  refine ⟨_, ?_, fun asns same => exportFilter_quoted_ne routePrefix word others ?_⟩
  · rw [← written]
    have given : Option.mapM AsSeq.toSet (some (.set poisons)) = .ok (some poisons) := rfl
    simp only [makeAnnouncement, Effect.bind_eq, given, Effect.ofExcept_ok, announceArgs, ran]
    by_cases fails : host.birdc ≠ 0
    · rw [if_pos fails]
      rfl
    · rw [if_neg fails]
      rfl
  · rintro rfl
    exact nonempty.ne_empty (by simpa using same.symm)

def exampleHost : Host where
  progdir := "/peering".toList
  root := true
  mux2dev := Dict.empty.set "amsterdam01".toList "tap5".toList
  prefixDb := some ["184.164.224.0/24".toList]
  prefix6Db := some []
  glob _ word := [word]
  evaluate _ := throw 1
  test _ _ := false
  seq _ := 0
  birdc := 0
  otherScript _ _ := 0

theorem poisons_never_bare_example :
    ∃ filter, (final (makeAnnouncement exampleHost sorted "184.164.224.0/24".toList "amsterdam01".toList
        (some (.set {65001, 65002})) .empty)).get?
          (filterfn exampleHost "184.164.224.0/24".toList "amsterdam01".toList) = some filter ∧
      ∀ asns : List Asn, asns.toFinset = {65001, 65002} →
        filter ≠ exportFilter "184.164.224.0/24".toList (asns.map Text.ofInt) :=
  poisons_never_bare sorted (by decide) (.inr ⟨rfl, by decide, by decide⟩)
    ⟨⟨_, _, rfl, rfl, by decide⟩, '1', by decide, by decide⟩ (by decide) .empty

/-- The one poison is prepended with its quotes. -/
theorem single_poison_quoted :
    ¬ ∃ asns : List Asn, asns.Nodup ∧ asns.toFinset = {65001} ∧
      (final (makeAnnouncement exampleHost sorted "184.164.224.0/24".toList "amsterdam01".toList
        (some (.set {65001})) .empty)).get?
          (filterfn exampleHost "184.164.224.0/24".toList "amsterdam01".toList) =
            some (exportFilter "184.164.224.0/24".toList (asns.map Text.ofInt)) := by
  have written : (final (makeAnnouncement exampleHost sorted "184.164.224.0/24".toList "amsterdam01".toList
      (some (.set {65001})) .empty)).get?
        (filterfn exampleHost "184.164.224.0/24".toList "amsterdam01".toList) =
          some (exportFilter "184.164.224.0/24".toList ["\"65001\"".toList]) := by decide +kernel
  have quote : "\"65001\"".toList = '"' :: "65001\"".toList := by decide
  intro bare
  obtain ⟨asns, _, same, filter⟩ := bare
  rw [written, quote] at filter
  refine exportFilter_quoted_ne _ _ [] ?_ (Option.some.inj filter)
  rintro rfl
  simp at same

end ActiveBgp.Peering.Announcement

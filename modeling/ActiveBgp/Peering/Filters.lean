import ActiveBgp.Peering.PlainOptions

namespace ActiveBgp.Peering.PeeringPrefix

open ActiveBgp.Python ActiveBgp.Shell ActiveBgp.Data.Exploration

/-! # The filters that one command writes

`do_announce` changes two variables that are global, so every call finds them as the
calls before have left them.  A second call does not change them any more.
-/

section Settled

variable {vars : Variables}

/-- An origin alone is prepended once. -/
def Variables.prepended (vars : Variables) : Variables :=
  if valueOf vars.prepend = 0 ∧ valueOf vars.origin ≠ 0 then { vars with prepend := "1".toList } else vars

/-- The number of the testbed is the origin that is prepended if none is given. -/
def Variables.originated (vars : Variables) : Variables :=
  if vars.poisons = [] ∧ valueOf vars.prepend ≠ 0 ∧ valueOf vars.origin = 0 then { vars with origin := "47065".toList }
  else vars

/-- What a call of `do_announce` makes of the variables. -/
def Variables.settled (vars : Variables) : Variables := vars.prepended.originated

theorem constant_one : constant? "1".toList = some 1 := by decide

theorem constant_testbed : constant? "47065".toList = some 47065 := by decide

theorem prepended_prepended (vars : Variables) : vars.prepended.prepended = vars.prepended := by
  by_cases alone : valueOf vars.prepend = 0 ∧ valueOf vars.origin ≠ 0
  · have one : vars.prepended = { vars with prepend := "1".toList } := if_pos alone
    rw [one, Variables.prepended, valueOf_eq constant_one]
    exact if_neg fun both => absurd both.1 (by decide)
  · have same : vars.prepended = vars := if_neg alone
    rw [same, same]

@[simp] theorem prepended_poisons (vars : Variables) : vars.prepended.poisons = vars.poisons := by
  unfold Variables.prepended
  split <;> rfl

@[simp] theorem prepended_origin (vars : Variables) : vars.prepended.origin = vars.origin := by
  unfold Variables.prepended
  split <;> rfl

@[simp] theorem originated_poisons (vars : Variables) : vars.originated.poisons = vars.poisons := by
  unfold Variables.originated
  split <;> rfl

@[simp] theorem originated_prepend (vars : Variables) : vars.originated.prepend = vars.prepend := by
  unfold Variables.originated
  split <;> rfl

theorem settled_settled (vars : Variables) : vars.settled.settled = vars.settled := by
  have again := prepended_prepended vars
  rw [Variables.settled, Variables.settled]
  generalize vars.prepended = start at again
  by_cases bare : start.poisons = [] ∧ valueOf start.prepend ≠ 0 ∧ valueOf start.origin = 0
  · have given : start.originated = { start with origin := "47065".toList } := if_pos bare
    have kept : start.originated.prepended = start.originated := by
      rw [given, Variables.prepended]
      exact if_neg fun both => bare.2.1 both.1
    rw [kept, given, Variables.originated, valueOf_eq constant_testbed]
    exact if_neg fun all => absurd all.2.2 (by decide)
  · have same : start.originated = start := if_neg bare
    rw [same, again, same]

theorem Variables.Compatible.settled_eq (compatible : vars.Compatible) (poisons : vars.poisons ≠ []) :
    vars.prepended = vars ∧ vars.settled = vars := by
  have kept : vars.prepended = vars := if_neg fun both => both.2 (compatible poisons).1
  refine ⟨kept, ?_⟩
  rw [Variables.settled, kept]
  exact if_neg fun all => poisons all.1

theorem Variables.Compatible.prepended (compatible : vars.Compatible) : vars.prepended.Compatible := by
  intro poisons
  rw [prepended_poisons] at poisons
  rw [(compatible.settled_eq poisons).1]
  exact compatible poisons

theorem Variables.Compatible.settled (compatible : vars.Compatible) : vars.settled.Compatible := by
  intro poisons
  have given : vars.poisons ≠ [] := by simpa [Variables.settled] using poisons
  rw [(compatible.settled_eq given).2]
  exact compatible given

theorem Variables.Plain.prepended (plain : vars.Plain) : vars.prepended.Plain := by
  unfold Variables.prepended
  split
  · exact ⟨⟨1, constant_one⟩, plain.origin, plain.poisons⟩
  · exact plain

theorem Variables.Plain.settled (plain : vars.Plain) : vars.settled.Plain := by
  have prepended := plain.prepended
  unfold Variables.settled Variables.originated
  split
  · exact ⟨prepended.prepend, ⟨47065, constant_testbed⟩, prepended.poisons⟩
  · exact prepended

/-- The change leaves alone what the settled values depend on. -/
structure Steady (change : Variables → Variables) : Prop where
  poisons : ∀ vars, (change vars).poisons = vars.poisons
  prepend : ∀ (vars : Variables) value, change { vars with prepend := value } = { change vars with prepend := value }
  origin : ∀ (vars : Variables) value, change { vars with origin := value } = { change vars with origin := value }

theorem steady_files (files : Files) : Steady fun vars => { vars with files := files } :=
  ⟨fun _ => rfl, fun _ _ => rfl, fun _ _ => rfl⟩

namespace Steady

variable {change : Variables → Variables} (steady : Steady change)

include steady

theorem prepend_eq (vars : Variables) : (change vars).prepend = vars.prepend := by
  have same := congrArg Variables.prepend (steady.prepend vars vars.prepend)
  exact same

theorem origin_eq (vars : Variables) : (change vars).origin = vars.origin := by
  have same := congrArg Variables.origin (steady.origin vars vars.origin)
  exact same

theorem prepended (vars : Variables) : (change vars).prepended = change vars.prepended := by
  have conditions : (valueOf (change vars).prepend = 0 ∧ valueOf (change vars).origin ≠ 0) ↔
      (valueOf vars.prepend = 0 ∧ valueOf vars.origin ≠ 0) := by
    rw [steady.prepend_eq, steady.origin_eq]
  by_cases alone : valueOf vars.prepend = 0 ∧ valueOf vars.origin ≠ 0
  · rw [Variables.prepended, Variables.prepended, if_pos alone, if_pos (conditions.mpr alone)]
    exact (steady.prepend vars "1".toList).symm
  · rw [Variables.prepended, Variables.prepended, if_neg alone, if_neg (mt conditions.mp alone)]

theorem originated (vars : Variables) : (change vars).originated = change vars.originated := by
  have conditions : ((change vars).poisons = [] ∧ valueOf (change vars).prepend ≠ 0 ∧ valueOf (change vars).origin = 0) ↔
      (vars.poisons = [] ∧ valueOf vars.prepend ≠ 0 ∧ valueOf vars.origin = 0) := by
    rw [steady.poisons, steady.prepend_eq, steady.origin_eq]
  by_cases bare : vars.poisons = [] ∧ valueOf vars.prepend ≠ 0 ∧ valueOf vars.origin = 0
  · rw [Variables.originated, Variables.originated, if_pos bare, if_pos (conditions.mpr bare)]
    exact (steady.origin vars "47065".toList).symm
  · rw [Variables.originated, Variables.originated, if_neg bare, if_neg (mt conditions.mp bare)]

theorem settled (vars : Variables) : (change vars).settled = change vars.settled := by
  rw [Variables.settled, steady.prepended, steady.originated]
  rfl

end Steady

theorem settled_optioned (args : List Text) (files : Files) :
    (optioned args files).settled = { (optioned args .empty).settled with files := files } := by
  rw [optioned_files]
  exact (steady_files files).settled _

end Settled

section DoAnnounce

variable {host : Host} {vars : Variables} {routePrefix mux file : Text}

/-- The lines that change the path; the variables are those after the call. -/
def pathLines (vars : Variables) : List Text :=
  if vars.poisons ≠ [] then pathPrepend "47065".toList :: (splitWords vars.poisons).map pathPrepend
  else if valueOf vars.prepend ≠ 0 then (List.replicate (valueOf vars.prepend).toNat vars.origin).map pathPrepend
  else []

def communityLines (vars : Variables) : List Text :=
  (if isDefined vars.communities then vars.communities.map fun comm => communityAdd ("47065,".toList ++ comm) else []) ++
    if isDefined vars.fullCommunities then vars.fullCommunities.map communityAdd else []

def guardLine (routePrefix : Text) : Text := "if ( net = ".toList ++ routePrefix ++ " ) then \x7b".toList

def bodyLines (vars : Variables) : List Text :=
  pathLines vars ++ communityLines vars ++ ["    accept;".toList, "\x7d".toList]

/-- The filter of every mux. -/
def filterText (routePrefix : Text) (vars : Variables) : Text := fileText (guardLine routePrefix :: bodyLines vars)

def Variables.write (vars : Variables) (file : Text) (lines : List Text) : Variables :=
  { vars with files := appendLines file lines vars.files }

theorem appendLines_append (file : Text) (first second : List Text) (files : Files) :
    appendLines file second (appendLines file first files) = appendLines file (first ++ second) files := by
  simp [appendLines]

theorem write_write (vars : Variables) (file : Text) (first second : List Text) :
    (vars.write file first).write file second = vars.write file (first ++ second) := by
  simp [Variables.write, appendLines_append]

theorem forEach_echo (file : Text) (line : Text → Text) (items : List Text) (vars : Variables) :
    forEach (fun item => echo file (line item)) items vars = .ok () (vars.write file (items.map line)) := by
  induction items generalizing vars with
  | nil => rfl
  | cons item rest ih =>
      rw [forEach_cons]
      exact ih _

theorem writePath_poisons (plain : vars.Plain) (compatible : vars.Compatible) (poisons : vars.poisons ≠ []) (file : Text) :
    writePath host file vars = .ok () (vars.write file (pathLines vars)) := by
  obtain ⟨origin, prepend⟩ := compatible poisons
  have unset : isNonzero host vars.files vars.prepend = false ∧ isNonzero host vars.files vars.origin = false := by
    rw [isNonzero_constant plain.prepend, isNonzero_constant plain.origin]
    exact ⟨decide_eq_false (not_not.mpr prepend), decide_eq_false (not_not.mpr origin)⟩
  have lines : pathLines vars = ["47065".toList].map pathPrepend ++ (splitWords vars.poisons).map pathPrepend := if_pos poisons
  unfold writePath
  rw [bind_result, get_apply]
  simp only [if_pos poisons, unset.1, unset.2, if_neg Bool.false_ne_true]
  rw [bind_result, lines, ← write_write]
  simp only [echo_apply]
  rw [bind_result, get_apply]
  simp only [words_plain _ plain.poisons]
  exact forEach_echo file pathPrepend (splitWords vars.poisons) (vars.write file [pathPrepend "47065".toList])

theorem writePath_prepends (plain : vars.Plain) (none : vars.poisons = []) (file : Text) :
    writePath host file vars = .ok () (vars.originated.write file (pathLines vars.originated)) := by
  unfold writePath
  rw [bind_result, get_apply]
  simp only [if_neg (not_not.mpr none), isNonzero_constant plain.prepend, decide_eq_true_eq]
  by_cases zero : valueOf vars.prepend = 0
  · have kept : vars.originated = vars := if_neg fun all => all.2.1 zero
    have lines : pathLines vars = [] := by simp [pathLines, none, zero]
    rw [if_neg (not_not.mpr zero), kept, lines]
    rfl
  · have origin : (if isZero host vars.files vars.origin = true then { vars with origin := "47065".toList } else vars) =
        vars.originated := by
      simp [Variables.originated, none, zero, isZero_constant plain.origin]
    have lines : pathLines vars.originated =
        (List.replicate (valueOf vars.prepend).toNat vars.originated.origin).map pathPrepend := by
      rw [pathLines, originated_poisons, originated_prepend, if_neg (not_not.mpr none), if_pos zero]
    rw [if_pos zero, bind_result]
    simp only [modify_apply, origin]
    rw [bind_result, get_apply]
    simp only [seqLength_constant plain.prepend, forEach_echo, lines]

/-- A call with numbers that go together writes the lines of the path. -/
theorem writePath_ok (plain : vars.Plain) (compatible : vars.Compatible) (file : Text) :
    writePath host file vars = .ok () (vars.originated.write file (pathLines vars.originated)) := by
  by_cases poisons : vars.poisons = []
  · exact writePath_prepends plain poisons file
  · have kept : vars.originated = vars := if_neg fun all => poisons all.1
    rw [kept]
    exact writePath_poisons plain compatible poisons file

theorem addCommunities_ok (file : Text) (line : Text → Text) (communities : List Text) (vars : Variables) :
    addCommunities file line communities vars =
      .ok () (vars.write file (if isDefined communities then communities.map line else [])) := by
  unfold addCommunities
  split
  · exact forEach_echo file line communities vars
  · rfl

theorem writeCommunities_ok (vars : Variables) (file : Text) :
    writeCommunities file vars = .ok () (vars.write file (communityLines vars)) := by
  unfold writeCommunities
  rw [bind_result]
  simp only [get_apply]
  rw [bind_result, addCommunities_ok]
  simp only [addCommunities_ok, write_write]
  rfl

theorem routefn_ne (host : Host) (routePrefix mux : Text) : routefn host routePrefix ≠ filterfn host routePrefix mux := by
  intro same
  have routes : "/route-announcements/".toList = '/' :: 'r' :: "oute-announcements/".toList := by decide
  have filters : "/prefix-filters/export_".toList = '/' :: 'p' :: "refix-filters/export_".toList := by decide
  have rest := List.append_cancel_left same
  rw [routes, filters] at rest
  simp only [List.cons_append, List.cons.injEq] at rest
  exact absurd rest.2.1 (by decide)

def routeLine (routePrefix : Text) : Text := "route ".toList ++ routePrefix ++ " unreachable;".toList

/-- The files after a call of `do_announce`: the filter of the mux, and the route. -/
def announcedFiles (host : Host) (routePrefix mux : Text) (vars : Variables) (files : Files) : Files :=
  overwrite (routefn host routePrefix) (routeLine routePrefix)
    (appendLines (filterfn host routePrefix mux) (bodyLines vars)
      (overwrite (filterfn host routePrefix mux) (guardLine routePrefix) files))

theorem prepended_eq (plain : vars.Plain) (host : Host) :
    (if isZero host vars.files vars.prepend ∧ isNonzero host vars.files vars.origin then { vars with prepend := "1".toList }
      else vars) = vars.prepended := by
  simp only [isZero_constant plain.prepend, isNonzero_constant plain.origin, decide_eq_true_eq]
  rfl

/-- A call with numbers that go together writes its two files, and nothing else. -/
theorem doAnnounce_ok (plain : vars.Plain) (compatible : vars.Compatible) (host : Host) (routePrefix mux : Text) :
    doAnnounce host routePrefix mux vars =
      .ok () { vars.settled with files := announcedFiles host routePrefix mux vars.settled vars.files } := by
  let file := filterfn host routePrefix mux
  let guarded := overwrite file (guardLine routePrefix) vars.files
  let start : Variables := { vars.settled with files := guarded }
  let lines := pathLines vars.settled ++ communityLines vars.settled
  have opened : ({ vars with files := guarded } : Variables).Plain := ⟨plain.prepend, plain.origin, plain.poisons⟩
  have path : writePath host file { vars.prepended with files := guarded } =
      .ok () (start.write file (pathLines vars.settled)) := by
    have started : ({ vars.prepended with files := guarded } : Variables).Plain :=
      ⟨plain.prepended.prepend, plain.prepended.origin, plain.prepended.poisons⟩
    rw [writePath_ok started compatible.prepended, (steady_files guarded).originated]
    rfl
  have communities : writeCommunities file (start.write file (pathLines vars.settled)) = .ok () (start.write file lines) := by
    rw [writeCommunities_ok, write_write]
    rfl
  unfold doAnnounce
  rw [bind_result]
  simp only [modify_apply]
  rw [bind_result]
  simp only [modify_apply]
  refine (congrArg (writePath host file >>= _) (prepended_eq opened host)).trans ?_
  rw [(steady_files guarded).prepended, bind_result, path]
  simp only
  rw [bind_result, communities]
  have body : appendLines file (bodyLines vars.settled) guarded =
      appendLines file ["    accept;".toList, "\x7d".toList] (appendLines file lines guarded) :=
    (appendLines_append ..).symm
  rw [announcedFiles, body]
  rfl

theorem get?_announcedFiles (host : Host) (routePrefix mux : Text) (vars : Variables) (files : Files) :
    (announcedFiles host routePrefix mux vars files).get? (filterfn host routePrefix mux) = some (filterText routePrefix vars) := by
  rw [announcedFiles, get?_overwrite_ne (routefn_ne host routePrefix mux), get?_appendLines (get?_overwrite _ _ files)]
  rfl

theorem get?_announcedFiles_ne {other : Text} (different : filterfn host routePrefix mux ≠ filterfn host routePrefix other)
    (vars : Variables) (files : Files) : (announcedFiles host routePrefix mux vars files).get? (filterfn host routePrefix other) =
      files.get? (filterfn host routePrefix other) := by
  rw [announcedFiles, get?_overwrite_ne (routefn_ne host routePrefix other), get?_appendLines_ne different,
    get?_overwrite_ne different]

/-- The files after the calls for these muxes, all of which write what the first one writes. -/
def allAnnounced (host : Host) (routePrefix : Text) (vars : Variables) (muxes : List Text) (files : Files) : Files :=
  muxes.foldl (fun files mux => announcedFiles host routePrefix mux vars files) files

theorem forEach_doAnnounce (plain : vars.Plain) (compatible : vars.Compatible) (host : Host) (routePrefix : Text)
    (muxes : List Text) : ∃ after, forEach (doAnnounce host routePrefix) muxes vars = .ok () after ∧
      after.files = allAnnounced host routePrefix vars.settled muxes vars.files := by
  induction muxes generalizing vars with
  | nil => exact ⟨vars, rfl, rfl⟩
  | cons first rest ih =>
      let files := announcedFiles host routePrefix first vars.settled vars.files
      have same : ({ vars.settled with files := files } : Variables).settled = { vars.settled with files := files } := by
        rw [(steady_files files).settled, settled_settled]
      have started : ({ vars.settled with files := files } : Variables).Plain :=
        ⟨plain.settled.prepend, plain.settled.origin, plain.settled.poisons⟩
      obtain ⟨after, finished, all⟩ := ih started compatible.settled
      rw [same] at all
      exact ⟨after, by rw [forEach_cons, doAnnounce_ok plain compatible]; exact finished, all⟩

theorem get?_allAnnounced {muxes : List Text} (listed : mux ∈ muxes) (host : Host) (routePrefix : Text) (vars : Variables)
    (files : Files) : (allAnnounced host routePrefix vars muxes files).get? (filterfn host routePrefix mux) =
      some (filterText routePrefix vars) := by
  have general (files : Files) (written : mux ∈ muxes ∨
      files.get? (filterfn host routePrefix mux) = some (filterText routePrefix vars)) :
      (allAnnounced host routePrefix vars muxes files).get? (filterfn host routePrefix mux) =
        some (filterText routePrefix vars) := by
    clear listed
    induction muxes generalizing files with
    | nil => exact written.resolve_left List.not_mem_nil
    | cons first rest ih =>
        refine ih _ ?_
        by_cases equal : filterfn host routePrefix first = filterfn host routePrefix mux
        · refine .inr ?_
          rw [← equal]
          exact get?_announcedFiles host routePrefix first vars files
        · rcases written with listed | before
          · rcases List.mem_cons.mp listed with rfl | later
            · exact absurd rfl equal
            · exact .inl later
          · exact .inr ((get?_announcedFiles_ne equal vars files).trans before)
  exact general files (.inl listed)

end DoAnnounce

end ActiveBgp.Peering.PeeringPrefix

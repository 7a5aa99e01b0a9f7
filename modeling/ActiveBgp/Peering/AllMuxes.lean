import ActiveBgp.Peering.Announcement

namespace ActiveBgp.Peering.PeeringPrefix

open ActiveBgp.Python ActiveBgp.Shell ActiveBgp.Data.Exploration ActiveBgp.Peering.Announcement

/-! # Announcing to all muxes

Between the option `-m` and the calls of `do_announce`, the script does not look at
the variable `mux`.  Two plain command lines that differ in their mux therefore reach
the calls with the same variables.
-/

section Commands

variable {host : Host} {args single : List Text} {before after : List (Char × Text)} {operands : List Text} {files : Files}
  {mux : Text}

def Variables.withMux (vars : Variables) (mux : Text) : Variables := { vars with mux := mux }

theorem steady_withMux (mux : Text) : Steady fun vars => vars.withMux mux :=
  ⟨fun _ => rfl, fun _ _ => rfl, fun _ _ => rfl⟩

theorem assign_withMux {option : Char × Text} (notMux : option.1 ≠ 'm') (vars : Variables) (mux : Text) :
    (vars.withMux mux).assign option = (vars.assign option).withMux mux := by
  unfold Variables.assign
  split
  · contradiction
  all_goals rfl

theorem foldl_withMux {options : List (Char × Text)} (notMux : ∀ option ∈ options, option.1 ≠ 'm') (vars : Variables)
    (mux : Text) : options.foldl Variables.assign (vars.withMux mux) = (options.foldl Variables.assign vars).withMux mux := by
  induction options generalizing vars with
  | nil => rfl
  | cons option rest ih =>
      obtain ⟨first, later⟩ := List.forall_mem_cons.mp notMux
      rw [List.foldl_cons, List.foldl_cons, assign_withMux first, ih later]

/-- The options have `-m mux` at this place, and no other `-m` behind it. -/
structure NamesMux (args : List Text) (before after : List (Char × Text)) (operands : List Text) (mux : Text) : Prop where
  parsed : getopts letters args = (before ++ ('m', mux) :: after, operands)
  last : ∀ option ∈ after, option.1 ≠ 'm'

/-- The options pass the checks, and every call of `do_announce` succeeds. -/
def Announces (host : Host) (args : List Text) (files : Files) : Prop :=
  ∃ vars last, prepare host args { files := files } = .ok () vars ∧
    forEach (doAnnounce host (operand args)) (muxes host vars.mux) vars = .ok () last

/-- The files after `./peering prefix announce` with the arguments. -/
def announced (host : Host) (args : List Text) (files : Files) : Files :=
  final (runPeering host ("prefix".toList :: "announce".toList :: args) files)

theorem announces_accepted (plain : PlainArgs args) (accepts : Accepts host args) (files : Files) :
    Announces host args files := by
  have allowed := (allowed_files host args files).mpr accepts.allowed
  obtain ⟨last, done, _⟩ := forEach_doAnnounce (plain_optioned plain files) allowed.compatible host (operand args)
    (muxes host (optioned args files).mux)
  exact ⟨_, last, prepare_accepted plain accepts files, done⟩

theorem get?_announced (nonempty : args ≠ []) (plain : PlainArgs args) (accepts : Accepts host args)
    (listed : mux ∈ muxes host (optioned args .empty).mux) (files : Files) :
    (announced host args files).get? (filterfn host (operand args) mux) =
      some (filterText (operand args) (optioned args .empty).settled) := by
  obtain ⟨after, ran, written⟩ := runPeering_announce nonempty plain accepts files
  rw [announced, ran]
  exact written mux listed

theorem mem_muxes {name : Text} (listed : mux ∈ host.mux2dev.keys) (served : name = "all".toList ∨ name = mux) :
    mux ∈ muxes host name := by
  unfold muxes
  split
  · exact listed
  · rename_i single
    exact List.mem_singleton.mpr (served.resolve_left single).symm

namespace NamesMux

theorem args_ne_nil (named : NamesMux args before after operands mux) : args ≠ [] := by
  rintro rfl
  have parsed := named.parsed
  simp [getopts] at parsed

theorem operand_eq {other : Text} (named : NamesMux args before after operands mux)
    (one : NamesMux single before after operands other) : operand single = operand args := by
  rw [operand, operand, named.parsed, one.parsed]

theorem mem_options (named : NamesMux args before after operands mux) {option : Char × Text} :
    option ∈ (getopts letters args).1 ↔ option = ('m', mux) ∨ option ∈ before ++ after := by
  rw [named.parsed, List.mem_append, List.mem_cons, List.mem_append]
  tauto

theorem plain (named : NamesMux args before after operands mux) (plain : ∀ option ∈ before ++ after, PlainOption option) :
    PlainArgs args := by
  intro option member
  rcases named.mem_options.mp member with rfl | other
  · exact ⟨by simp, by simp, by simp⟩
  · exact plain option other

/-- Another mux is all that another argument of `-m` changes. -/
theorem optioned_eq (named : NamesMux args before after operands mux) (files : Files) :
    optioned args files = ((before ++ after).foldl Variables.assign { files := files }).withMux mux := by
  rw [optioned, named.parsed, List.foldl_append, List.foldl_append, List.foldl_cons]
  exact foldl_withMux named.last _ mux

theorem accepts (everywhere : NamesMux args before after operands "all".toList) (alone : NamesMux single before after operands mux)
    (known : Known host mux) (accepted : Accepts host args) : Accepts host single := by
  have base := accepted.allowed
  rw [everywhere.optioned_eq] at base
  refine ⟨accepted.root, fun option member => ?_, ?_, everywhere.operand_eq alone ▸ accepted.configured⟩
  · rcases alone.mem_options.mp member with rfl | other
    · exact ⟨by simp [letters], by simp, by simp⟩
    · exact accepted.options option (everywhere.mem_options.mpr (.inr other))
  · rw [alone.optioned_eq]
    exact ⟨known, base.origin, base.prepend, base.compatible⟩

theorem filterText_eq (everywhere : NamesMux args before after operands "all".toList)
    (alone : NamesMux single before after operands mux) (routePrefix : Text) :
    filterText routePrefix (optioned single .empty).settled = filterText routePrefix (optioned args .empty).settled := by
  rw [alone.optioned_eq, everywhere.optioned_eq, (steady_withMux mux).settled, (steady_withMux "all".toList).settled]
  rfl

end NamesMux

end Commands

/-- A plain announcement to all muxes gives each of them the filter of an announcement to it
alone, and no call in the loop fails. -/
theorem filters_of_all_muxes {host : Host} {all single : List Text} {before after : List (Char × Text)}
    {operands : List Text} {mux : Text} (everywhere : NamesMux all before after operands "all".toList)
    (alone : NamesMux single before after operands mux) (plain : ∀ option ∈ before ++ after, PlainOption option)
    (listed : mux ∈ host.mux2dev.keys) (device : orUnset (host.mux2dev.get? mux) ≠ "unset".toList) {files : Files}
    (accepted : Passes host all files) : Announces host all files ∧ Announces host single files ∧
      ∃ filter, (announced host all files).get? (filterfn host (operand all) mux) = some filter ∧
        (announced host single files).get? (filterfn host (operand single) mux) = some filter := by
  have accepts := (passes_iff (everywhere.plain plain)).mp accepted
  have acceptsAlone := everywhere.accepts alone (.inr device) accepts
  have inside : mux ∈ muxes host (optioned all .empty).mux := by
    rw [everywhere.optioned_eq]
    exact mem_muxes listed (.inl rfl)
  have own : mux ∈ muxes host (optioned single .empty).mux := by
    rw [alone.optioned_eq]
    exact mem_muxes listed (.inr rfl)
  refine ⟨announces_accepted (everywhere.plain plain) accepts files, announces_accepted (alone.plain plain) acceptsAlone files,
    _, get?_announced everywhere.args_ne_nil (everywhere.plain plain) accepts inside files, ?_⟩
  rw [get?_announced alone.args_ne_nil (alone.plain plain) acceptsAlone own files, everywhere.operand_eq alone,
    everywhere.filterText_eq alone]

def twoMuxes : Host := { exampleHost with mux2dev := exampleHost.mux2dev.set "seattle01".toList "tap1".toList }

def announceOption (option : Char × Text) (mux : Text) : List Text :=
  ["-m".toList, mux, ['-', option.1], option.2, "184.164.224.0/24".toList]

theorem announceOption_named {option : Char × Text} (known : option.1 ∈ letters) (notMux : option.1 ≠ 'm') (mux : Text) :
    NamesMux (announceOption option mux) [] [option] ["184.164.224.0/24".toList] mux := by
  refine ⟨?_, List.forall_mem_singleton.mpr notMux⟩
  have m : "-m".toList = ['-', 'm'] := by decide
  have notDash : option.1 ≠ '-' := by
    intro dash
    rw [dash] at known
    exact absurd known (by decide)
  rw [announceOption, m, getopts_option (by decide) (by decide), getopts_option known notDash, getopts_operand (by decide)]
  rfl

/-- The origin alone is prepended once for each mux. -/
theorem filters_of_all_muxes_example :
    Announces twoMuxes (announceOption ('o', "65001".toList) "all".toList) .empty ∧
      Announces twoMuxes (announceOption ('o', "65001".toList) "seattle01".toList) .empty ∧
      ∃ filter, (announced twoMuxes (announceOption ('o', "65001".toList) "all".toList) .empty).get?
          (filterfn twoMuxes (operand (announceOption ('o', "65001".toList) "all".toList)) "seattle01".toList) = some filter ∧
        (announced twoMuxes (announceOption ('o', "65001".toList) "seattle01".toList) .empty).get?
          (filterfn twoMuxes (operand (announceOption ('o', "65001".toList) "seattle01".toList)) "seattle01".toList) =
            some filter := by
  have constant : IsConstant "65001".toList := ⟨65001, by decide⟩
  exact filters_of_all_muxes (announceOption_named (by decide) (by decide) "all".toList)
    (announceOption_named (by decide) (by decide) "seattle01".toList)
    (List.forall_mem_singleton.mpr ⟨fun _ => constant, by simp, by simp⟩) (by decide) (by decide)
    ⟨{ origin := "65001".toList, files := .empty }, rfl⟩

/-- For `[[ ]]`, the text `1 = 1 -o 1` is invalid, so no check refuses it; for `[`, it is true,
and `seq` has no lines for it. -/
def oddHost : Host := { twoMuxes with evaluate := fun _ => pure none, test := fun _ _ => true }

/-- The first call leaves an origin, which the second one prepends. -/
theorem later_mux_differs : Passes oddHost (announceOption ('P', "1 = 1 -o 1".toList) "all".toList) .empty ∧
    Passes oddHost (announceOption ('P', "1 = 1 -o 1".toList) "seattle01".toList) .empty ∧
    ¬ ∃ filter, (announced oddHost (announceOption ('P', "1 = 1 -o 1".toList) "all".toList) .empty).get?
          (filterfn oddHost "184.164.224.0/24".toList "seattle01".toList) = some filter ∧
        (announced oddHost (announceOption ('P', "1 = 1 -o 1".toList) "seattle01".toList) .empty).get?
          (filterfn oddHost "184.164.224.0/24".toList "seattle01".toList) = some filter := by
  have all : (announced oddHost (announceOption ('P', "1 = 1 -o 1".toList) "all".toList) .empty).get?
      (filterfn oddHost "184.164.224.0/24".toList "seattle01".toList) =
        some (fileText [guardLine "184.164.224.0/24".toList, pathPrepend "47065".toList, "    accept;".toList, "\x7d".toList]) := by
    decide +kernel
  have alone : (announced oddHost (announceOption ('P', "1 = 1 -o 1".toList) "seattle01".toList) .empty).get?
      (filterfn oddHost "184.164.224.0/24".toList "seattle01".toList) =
        some (fileText [guardLine "184.164.224.0/24".toList, "    accept;".toList, "\x7d".toList]) := by
    decide +kernel
  refine ⟨⟨_, rfl⟩, ⟨_, rfl⟩, ?_⟩
  rintro ⟨filter, first, second⟩
  have same := (all.symm.trans first).trans (alone.symm.trans second).symm
  exact absurd same (by decide +kernel)

end ActiveBgp.Peering.PeeringPrefix

import ActiveBgp.Data.Replica

namespace ActiveBgp.Data

variable {κ ν : Type*}

def Update.key : Update κ ν → κ
  | .assign key _ => key
  | .delete key => key

variable [DecidableEq κ] {table other : κ → Option ν} {log : List (Update κ ν)} {key : κ}

def overwritten (table : κ → Option ν) (log : List (Update κ ν)) : κ → Option ν := log.foldl Update.apply table

/-- No update is about the key. -/
def Spares (key : κ) (log : List (Update κ ν)) : Prop := ∀ update ∈ log, update.key ≠ key

theorem overwritten_append (table : κ → Option ν) (first second : List (Update κ ν)) :
    overwritten table (first ++ second) = overwritten (overwritten table first) second := by
  simp [overwritten]

theorem overwritten_cons (table : κ → Option ν) (update : Update κ ν) (rest : List (Update κ ν)) :
    overwritten table (update :: rest) = overwritten (update.apply table) rest := rfl

theorem Update.apply_congr (update : Update κ ν) (same : table key = other key) :
    update.apply table key = update.apply other key := by
  cases update <;> simp [Update.apply, Function.update_apply, same]

theorem overwritten_congr (log : List (Update κ ν)) (same : table key = other key) :
    overwritten table log key = overwritten other log key := by
  induction log generalizing table other with
  | nil => exact same
  | cons update rest ih => exact ih (update.apply_congr same)

theorem overwritten_spared (spares : Spares key log) : overwritten table log key = table key := by
  induction log generalizing table with
  | nil => rfl
  | cons update rest ih =>
      obtain ⟨first, later⟩ := List.forall_mem_cons.mp spares
      rw [overwritten_cons, ih later]
      cases update with
      | assign name value => exact Function.update_of_ne (Ne.symm first) _ _
      | delete name => exact Function.update_of_ne (Ne.symm first) _ _

theorem overwritten_map {write : κ → Update κ ν} {value : Option ν}
    (writes : ∀ name table, (write name).apply table = Function.update table name value) (table : κ → Option ν)
    (names : List κ) (key : κ) :
    overwritten table (names.map write) key = if key ∈ names then value else table key := by
  induction names using List.reverseRecOn with
  | nil => simp [overwritten]
  | append_singleton names last ih =>
      rw [List.map_append, overwritten_append, List.map_singleton, overwritten_cons, writes]
      by_cases same : key = last
      · simp [overwritten, same]
      · simpa [overwritten, Function.update_of_ne same, same] using ih

section Groups

variable {γ : Type*} {groups : List γ} {group : γ}

theorem overwritten_groups (table : κ → Option ν) {names : γ → List κ} (value : γ → ν) {own : γ → Bool}
    (owns : ∀ group, own group = true ↔ key ∈ names group) (groups : List γ) :
    overwritten table (groups.flatMap fun group => (names group).map fun name => .assign name (value group)) key =
      match (groups.filter own).getLast? with
      | some last => some (value last)
      | none => table key := by
  induction groups using List.reverseRecOn with
  | nil => rfl
  | append_singleton groups last ih =>
      rw [List.flatMap_append, overwritten_append, List.flatMap_singleton,
        overwritten_map fun _ _ => rfl, ih, List.filter_append]
      by_cases holds : own last = true
      · simp [holds, (owns last).mp holds]
      · simp [holds, mt (owns last).mpr holds]

/-- Of groups that do not share keys, the one with the key decides. -/
theorem overwritten_of_mem {updates : γ → List (Update κ ν)} (distinct : groups.Nodup) (member : group ∈ groups)
    (others : ∀ other ∈ groups, other ≠ group → Spares key (updates other)) (table : κ → Option ν) :
    overwritten table (groups.flatMap updates) key = overwritten table (updates group) key := by
  obtain ⟨before, after, rfl⟩ := List.append_of_mem member
  obtain ⟨_, rest, disjoint⟩ := List.nodup_append.mp distinct
  have spared (part : List γ) (inside : ∀ other ∈ part, other ∈ before ++ group :: after ∧ other ≠ group) :
      Spares key (part.flatMap updates) := by
    intro update member
    obtain ⟨other, among, member⟩ := List.mem_flatMap.mp member
    obtain ⟨listed, different⟩ := inside other among
    exact others other listed different update member
  have early : Spares key (before.flatMap updates) := spared before fun other among =>
    ⟨List.mem_append_left _ among, disjoint other among group List.mem_cons_self⟩
  have late : Spares key (after.flatMap updates) := spared after fun other among =>
    ⟨List.mem_append_right _ (List.mem_cons_of_mem _ among),
      fun same => (List.nodup_cons.mp rest).1 (same ▸ among)⟩
  rw [List.flatMap_append, List.flatMap_cons, overwritten_append, overwritten_append, overwritten_spared late]
  exact overwritten_congr _ (overwritten_spared early)

end Groups

end ActiveBgp.Data

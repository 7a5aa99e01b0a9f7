import ActiveBgp.Python.Collections
import ActiveBgp.Data.Digraph

namespace ActiveBgp.Data

open ActiveBgp.Python

section Firsts

variable {α : Type*} [DecidableEq α]

def firsts (sequence : List α) : IndexedSet α := sequence.foldl IndexedSet.add .empty

theorem firsts_snoc (sequence : List α) (value : α) : firsts (sequence ++ [value]) = (firsts sequence).add value := by
  simp [firsts]

@[simp] theorem mem_firsts {sequence : List α} {value : α} : value ∈ (firsts sequence).items ↔ value ∈ sequence := by
  induction sequence using List.reverseRecOn with
  | nil => simp [firsts, IndexedSet.empty]
  | append_singleton sequence last ih => rw [firsts_snoc, IndexedSet.mem_add, ih, List.mem_append, List.mem_singleton]

theorem items_firsts_snoc_old {sequence : List α} {value : α} (old : value ∈ sequence) :
    (firsts (sequence ++ [value])).items = (firsts sequence).items := by
  rw [firsts_snoc, IndexedSet.items_add, if_pos (mem_firsts.mpr old)]

theorem items_firsts_snoc_new {sequence : List α} {value : α} (new : value ∉ sequence) :
    (firsts (sequence ++ [value])).items = (firsts sequence).items ++ [value] := by
  rw [firsts_snoc, IndexedSet.items_add, if_neg fun member => new (mem_firsts.mp member)]

theorem mem_foldl_add {sequence : List α} {set : IndexedSet α} {value : α} :
    value ∈ (sequence.foldl IndexedSet.add set).items ↔ value ∈ set.items ∨ value ∈ sequence := by
  induction sequence generalizing set with
  | nil => simp
  | cons first rest ih => rw [List.foldl_cons, ih, IndexedSet.mem_add, List.mem_cons, or_assoc]

/-- A set that is filled from another one is filled from the sequence of that one. -/
theorem foldl_add_firsts (sequence : List α) (set : IndexedSet α) :
    (firsts sequence).items.foldl IndexedSet.add set = sequence.foldl IndexedSet.add set := by
  induction sequence using List.reverseRecOn with
  | nil => rfl
  | append_singleton sequence last ih =>
      by_cases old : last ∈ sequence
      · have inside : last ∈ (sequence.foldl IndexedSet.add set).items := mem_foldl_add.mpr (.inr old)
        rw [items_firsts_snoc_old old, ih, List.foldl_append, List.foldl_cons, List.foldl_nil,
          IndexedSet.add_of_mem inside]
      · rw [items_firsts_snoc_new old, List.foldl_append, ih, List.foldl_append]

theorem firsts_cons_cons (value : α) (rest : List α) : firsts (value :: value :: rest) = firsts (value :: rest) := by
  have inside : value ∈ (IndexedSet.empty.add value).items := (IndexedSet.mem_add _ _ _).mpr (.inr rfl)
  simp only [firsts, List.foldl_cons, IndexedSet.add_of_mem inside]

theorem head?_firsts (value : α) (rest : List α) : (firsts (value :: rest)).items.head? = some value := by
  induction rest using List.reverseRecOn with
  | nil => rfl
  | append_singleton rest last ih =>
      rw [← List.cons_append, firsts_snoc]
      exact IndexedSet.head?_add _ _ ih

/-- No value occurs for the first time after this one. -/
def LastNew (sequence : List α) (value : α) : Prop :=
  ∃ before after, sequence = before ++ value :: after ∧ value ∉ before ∧ ∀ other ∈ after, other ∈ before ++ [value]

/-- Nothing new occurs after the first occurrence of the last element. -/
theorem last_of_firsts {sequence front : List α} {last : α} (items : (firsts sequence).items = front ++ [last]) :
    LastNew sequence last := by
  induction sequence using List.reverseRecOn with
  | nil => simp [firsts, IndexedSet.empty] at items
  | append_singleton sequence value ih =>
      by_cases old : value ∈ sequence
      · rw [items_firsts_snoc_old old] at items
        obtain ⟨before, between, rfl, new, repeated⟩ := ih items
        refine ⟨before, between ++ [value], by simp, new, fun other member => ?_⟩
        rcases List.mem_append.mp member with earlier | same
        · exact repeated other earlier
        · rw [List.mem_singleton.mp same]
          rcases List.mem_append.mp old with inBefore | later
          · exact List.mem_append_left _ inBefore
          · exact (List.mem_cons.mp later).elim (fun same => by simp [same]) (repeated value)
      · rw [items_firsts_snoc_new old] at items
        obtain ⟨_, rfl⟩ := List.append_inj' items rfl |>.imp id List.singleton_inj.mp
        exact ⟨sequence, [], rfl, old, by simp⟩

theorem items_firsts_append_old {before after : List α} (old : ∀ value ∈ after, value ∈ before) :
    (firsts (before ++ after)).items = (firsts before).items := by
  induction after using List.reverseRecOn with
  | nil => rw [List.append_nil]
  | append_singleton after last ih =>
      have earlier : last ∈ before ++ after := List.mem_append_left _ (old last (by simp))
      rw [← List.append_assoc, items_firsts_snoc_old earlier]
      exact ih fun value member => old value (List.mem_append_left _ member)

theorem getLast?_firsts {sequence : List α} {value : α} :
    (firsts sequence).items.getLast? = some value ↔ LastNew sequence value := by
  constructor
  · intro last
    obtain ⟨front, items⟩ := List.getLast?_eq_some_iff.mp last
    exact last_of_firsts items
  · intro last
    obtain ⟨before, after, rfl, new, repeated⟩ := last
    rw [List.append_cons, items_firsts_append_old repeated, items_firsts_snoc_new new, List.getLast?_concat]

/-- All that lies between the first occurrences of the two values occurred before. -/
def FirstAfter (sequence : List α) (first second : α) : Prop :=
  ∃ before between after, sequence = before ++ first :: between ++ second :: after ∧ first ∉ before ∧
    second ∉ before ++ first :: between ∧ ∀ value ∈ between, value ∈ before ++ [first]

omit [DecidableEq α] in
theorem FirstAfter.snoc {sequence : List α} {first second : α} (pair : FirstAfter sequence first second) (value : α) :
    FirstAfter (sequence ++ [value]) first second := by
  obtain ⟨before, between, after, rfl, new⟩ := pair
  exact ⟨before, between, after ++ [value], by simp, new⟩

theorem firstAfter_of_pairwise {sequence : List α} {edge : α × α} (member : edge ∈ pairwise (firsts sequence).items) :
    FirstAfter sequence edge.1 edge.2 := by
  induction sequence using List.reverseRecOn with
  | nil => simp [firsts, IndexedSet.empty, pairwise] at member
  | append_singleton sequence value ih =>
      by_cases old : value ∈ sequence
      · rw [items_firsts_snoc_old old] at member
        exact (ih member).snoc value
      · rw [items_firsts_snoc_new old] at member
        rcases mem_pairwise_snoc member with earlier | ⟨rfl, front, items⟩
        · exact (ih earlier).snoc _
        · obtain ⟨before, between, rfl, new, repeated⟩ := last_of_firsts items
          exact ⟨before, between, [], by simp, new, old, repeated⟩

section Followed

omit [DecidableEq α]

/-- An occurrence of the one value is followed, perhaps after more of it, by the other one. -/
def FollowedBy (sequence : List α) (first second : α) : Prop :=
  ∃ before more after, sequence = before ++ List.replicate (more + 1) first ++ second :: after

/-- No value comes back after another one. -/
def Unbroken (sequence : List α) : Prop :=
  ∀ before value between after, sequence = before ++ value :: between ++ value :: after → ∀ other ∈ between, other = value

variable {sequence : List α} {first second : α}

theorem FollowedBy.infix (followed : FollowedBy sequence first second) : [first, second] <:+: sequence := by
  obtain ⟨before, more, after, rfl⟩ := followed
  exact ⟨before ++ List.replicate more first, after, by simp [List.replicate_succ']⟩

theorem FirstAfter.followedBy (pair : FirstAfter sequence first second) (unbroken : Unbroken sequence) :
    FollowedBy sequence first second := by
  obtain ⟨before, between, after, rfl, new, _, repeated⟩ := pair
  have only : ∀ value ∈ between, value = first := by
    intro value member
    rcases List.mem_append.mp (repeated value member) with earlier | same
    · obtain ⟨front, back, rfl⟩ := List.append_of_mem earlier
      obtain ⟨left, right, rfl⟩ := List.append_of_mem member
      have same := unbroken front value (back ++ first :: left) (right ++ second :: after) (by simp) first (by simp)
      exact same.symm
    · exact List.mem_singleton.mp same
  refine ⟨before, between.length, after, ?_⟩
  rw [List.eq_replicate_of_mem only, List.length_replicate, List.replicate_succ]

end Followed

end Firsts

section Lasts

variable {κ ν : Type*} [DecidableEq κ]

def lasts (entries : List (κ × ν)) : Dict κ ν := entries.foldl (fun dict entry => dict.set entry.1 entry.2) .empty

theorem lasts_snoc (entries : List (κ × ν)) (entry : κ × ν) :
    lasts (entries ++ [entry]) = (lasts entries).set entry.1 entry.2 := by
  simp [lasts]

def LastEntry (entries : List (κ × ν)) (key : κ) (value : ν) : Prop :=
  ∃ before after, entries = before ++ (key, value) :: after ∧ key ∉ after.map Prod.fst

omit [DecidableEq κ] in
theorem lastEntry_snoc {entries : List (κ × ν)} {entry : κ × ν} {key : κ} {value : ν} :
    LastEntry (entries ++ [entry]) key value ↔ entry = (key, value) ∨ entry.1 ≠ key ∧ LastEntry entries key value := by
  constructor
  · intro last
    obtain ⟨before, after, same, new⟩ := last
    rcases List.eq_nil_or_concat after with rfl | ⟨rest, final, rfl⟩
    · exact .inl (List.singleton_inj.mp (List.append_inj' same rfl).2)
    · have split : entries = before ++ (key, value) :: rest ∧ [entry] = [final] :=
        List.append_inj' (by simpa using same) rfl
      obtain ⟨rfl, ⟨⟩⟩ := split
      simp only [List.concat_eq_append, List.map_append, List.map_singleton, List.mem_append, List.mem_singleton,
        not_or] at new
      exact .inr ⟨Ne.symm new.2, before, rest, rfl, new.1⟩
  · intro either
    rcases either with rfl | ⟨different, before, after, rfl, new⟩
    · exact ⟨entries, [], rfl, by simp⟩
    · exact ⟨before, after ++ [entry], by simp, by simpa [Ne.symm different] using new⟩

theorem get?_lasts {entries : List (κ × ν)} {key : κ} {value : ν} :
    (lasts entries).get? key = some value ↔ LastEntry entries key value := by
  induction entries using List.reverseRecOn with
  | nil => simp [lasts, LastEntry]
  | append_singleton entries last ih =>
      obtain ⟨other, old⟩ := last
      rw [lasts_snoc, Dict.get?_set, lastEntry_snoc, ← ih]
      by_cases same : other = key <;> simp [same]

end Lasts

end ActiveBgp.Data

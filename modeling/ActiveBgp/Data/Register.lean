import Mathlib.Data.List.Induction
import Mathlib.Tactic.Common

namespace ActiveBgp.Data

/-! # Registers that ignore blank writes

An interface that drops empty arguments turns every assignment of a blank value
into no assignment at all.  Such a register shows the value written last just
when a blank was never written over anything else.
-/

variable {α : Type*} [DecidableEq α] (blank : α)

def writeOver (old new : α) : α :=
  if new = blank then old else new

/-- The register after `writes`, oldest first. -/
def register (writes : List α) : α :=
  writes.foldl (writeOver blank) blank

@[simp] theorem writeOver_blank (old : α) : writeOver blank old blank = old := if_pos rfl

theorem writeOver_of_ne (old : α) {new : α} (different : new ≠ blank) : writeOver blank old new = new :=
  if_neg different

@[simp] theorem writeOver_fresh (new : α) : writeOver blank blank new = new := by
  unfold writeOver
  split
  · rename_i same
    exact same.symm
  · rfl

@[simp] theorem writeOver_twice (old new : α) :
    writeOver blank (writeOver blank old new) new = writeOver blank old new := by
  unfold writeOver
  split <;> rfl

theorem writeOver_eq_new (old new : α) : writeOver blank old new = new ↔ (new = blank → old = blank) := by
  by_cases same : new = blank
  · subst same
    simp
  · simp [writeOver_of_ne blank _ same, same]

theorem register_append (writes : List α) (value : α) :
    register blank (writes ++ [value]) = writeOver blank (register blank writes) value := by
  simp [register]

theorem register_eq_blank (writes : List α) :
    register blank writes = blank ↔ ∀ value ∈ writes, value = blank := by
  induction writes using List.reverseRecOn with
  | nil => simp [register]
  | append_singleton earlier value ih =>
      rw [register_append]
      by_cases same : value = blank
      · subst same
        simp [ih, or_imp]
      · rw [writeOver_of_ne blank _ same]
        exact ⟨fun shown => absurd shown same, fun all => absurd (all value (by simp)) same⟩

theorem register_eq_last (writes : List α) (value : α) :
    register blank (writes ++ [value]) = value ↔ (value = blank → ∀ earlier ∈ writes, earlier = blank) := by
  rw [register_append, writeOver_eq_new, register_eq_blank]

end ActiveBgp.Data

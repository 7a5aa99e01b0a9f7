import Mathlib.Order.Basic

namespace ActiveBgp.Data.Contracts

/-! # Contracts

Two programs with the same state do the same from every state with an invariant, and
leave the invariant as it is, however they end.  A contract of the parts is one of the
whole.
-/

variable {ε σ α β : Type}

/-- What holds between the steps of a program, what may end it early, and what a step may change. -/
structure Discipline (ε σ : Type) where
  Holds : σ → Prop
  Allowed : ε → Prop
  Steps : σ → σ → Prop
  refl : ∀ state, Steps state state
  trans : ∀ {first second third}, Steps first second → Steps second third → Steps first third

namespace Discipline

variable {discipline : Discipline ε σ} {post : α → Prop} {after : β → Prop}

def Outcome (discipline : Discipline ε σ) (post : α → Prop) (before : σ) : EStateM.Result ε σ α → Prop
  | .ok value state => post value ∧ discipline.Holds state ∧ discipline.Steps before state
  | .error exit state => discipline.Allowed exit ∧ discipline.Holds state ∧ discipline.Steps before state

/-- The two programs are the same wherever the invariant holds, and keep it. -/
def Keeps (discipline : Discipline ε σ) (post : α → Prop) (first second : EStateM ε σ α) : Prop :=
  ∀ state, discipline.Holds state → first state = second state ∧ discipline.Outcome post state (first state)

theorem Keeps.pure {value : α} (holds : post value) :
    discipline.Keeps post (Pure.pure value) (Pure.pure value) := fun state invariant =>
  ⟨rfl, holds, invariant, discipline.refl state⟩

theorem Keeps.throw {exit : ε} (allowed : discipline.Allowed exit) :
    discipline.Keeps post (throw exit) (throw exit) := fun state invariant =>
  ⟨rfl, allowed, invariant, discipline.refl state⟩

theorem Keeps.get : discipline.Keeps discipline.Holds get get := fun state invariant =>
  ⟨rfl, invariant, invariant, discipline.refl state⟩

theorem Keeps.modify {change other : σ → σ} (same : ∀ state, discipline.Holds state → change state = other state)
    (holds : ∀ state, discipline.Holds state → discipline.Holds (change state) ∧ discipline.Steps state (change state)) :
    discipline.Keeps (fun _ => True) (modify change) (modify other) := fun state invariant =>
  ⟨congrArg (fun state => EStateM.Result.ok PUnit.unit state) (same state invariant), trivial,
    (holds state invariant).1, (holds state invariant).2⟩

theorem Keeps.bind {first second : EStateM ε σ α} {next later : α → EStateM ε σ β} (keeps : discipline.Keeps post first second)
    (goesOn : ∀ value, post value → discipline.Keeps after (next value) (later value)) :
    discipline.Keeps after (first >>= next) (second >>= later) := by
  intro state invariant
  obtain ⟨same, outcome⟩ := keeps state invariant
  have run (program : EStateM ε σ α) (next : α → EStateM ε σ β) : (program >>= next) state =
      match program state with
      | .ok value state => next value state
      | .error exit state => .error exit state := rfl
  rw [run, run, ← same]
  cases ran : first state with
  | error exit between =>
      rw [ran] at outcome
      exact ⟨rfl, outcome⟩
  | ok value between =>
      rw [ran] at outcome
      obtain ⟨rest, ended⟩ := goesOn value outcome.1 between outcome.2.1
      refine ⟨rest, ?_⟩
      change discipline.Outcome after state (next value between)
      cases finished : next value between <;> rw [finished] at ended <;>
        exact ⟨ended.1, ended.2.1, discipline.trans outcome.2.2 ended.2.2⟩

end Discipline

end ActiveBgp.Data.Contracts

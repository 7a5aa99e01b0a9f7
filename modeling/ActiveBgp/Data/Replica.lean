import ActiveBgp.Data.History
import Mathlib.Logic.Function.Basic

namespace ActiveBgp.Data

/-! # Replicas of a keyed table

A source publishes assignments and deletions; a replica replays them in order
from the empty table.  The log is `Effective` when no deletion names a key that
the replica does not hold.
-/

inductive Update (κ ν : Type*) where
  | assign (key : κ) (value : ν)
  | delete (key : κ)

variable {κ ν : Type*} [DecidableEq κ]

def Update.apply (table : κ → Option ν) : Update κ ν → κ → Option ν
  | .assign key value => Function.update table key (some value)
  | .delete key => Function.update table key none

def replay (log : List (Update κ ν)) : κ → Option ν :=
  log.foldl Update.apply fun _ => none

def Effective (log : List (Update κ ν)) : Prop :=
  Chronicle (fun before update => ∀ key, update = .delete key → (replay before key).isSome = true) log

variable {log : List (Update κ ν)} {key other : κ} {value : ν}

theorem replay_assign (log : List (Update κ ν)) (key other : κ) (value : ν) :
    replay (log ++ [.assign key value]) other = if other = key then some value else replay log other := by
  simp [replay, Update.apply, Function.update_apply]

theorem replay_delete (log : List (Update κ ν)) (key other : κ) :
    replay (log ++ [.delete key]) other = if other = key then none else replay log other := by
  simp [replay, Update.apply, Function.update_apply]

theorem Effective.assign (effective : Effective log) (key : κ) (value : ν) :
    Effective (log ++ [.assign key value]) :=
  (chronicle_snoc _).mpr ⟨effective, fun _ same => by cases same⟩

theorem Effective.delete (effective : Effective log) (present : (replay log key).isSome = true) :
    Effective (log ++ [.delete key]) :=
  (chronicle_snoc _).mpr ⟨effective, fun _ same => by cases same; exact present⟩

end ActiveBgp.Data

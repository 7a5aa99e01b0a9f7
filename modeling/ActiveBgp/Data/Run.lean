import Mathlib.Data.List.Induction
import Mathlib.Tactic.Common

namespace ActiveBgp.Data

/-! # Runs of a step function

A run records every event with the state it found.  Events that are not enabled
have no step, so a run is one interleaving of enabled events.
-/

variable {σ ε : Type*} {step : σ → ε → Option σ} {start last : σ} {history : List (σ × ε)}

inductive Run (step : σ → ε → Option σ) (start : σ) : List (σ × ε) → σ → Prop where
  | nil : Run step start [] start
  | snoc {history : List (σ × ε)} {state after : σ} (earlier : Run step start history state) (event : ε)
      (done : step state event = some after) : Run step start (history ++ [(state, event)]) after

def Throughout (property : σ → Prop) (history : List (σ × ε)) (last : σ) : Prop :=
  (∀ moment ∈ history, property moment.1) ∧ property last

theorem Throughout.snoc {property : σ → Prop} {state after : σ}
    (earlier : Throughout property history state) (event : ε) (now : property after) :
    Throughout property (history ++ [(state, event)]) after := by
  refine ⟨fun moment member => ?_, now⟩
  rcases List.mem_append.mp member with old | new
  · exact earlier.1 moment old
  · rw [List.mem_singleton.mp new]
    exact earlier.2

theorem Throughout.of_snoc {property : σ → Prop} {state after : σ} {event : ε}
    (all : Throughout property (history ++ [(state, event)]) after) : Throughout property history state :=
  ⟨fun moment member => all.1 moment (by simp [member]), all.1 (state, event) (by simp)⟩

theorem Throughout.imp {property weaker : σ → Prop} (implies : ∀ state, property state → weaker state)
    (all : Throughout property history last) : Throughout weaker history last :=
  ⟨fun moment member => implies _ (all.1 moment member), implies _ all.2⟩

/-- An invariant that is kept by the steps that meet a condition holds throughout
the runs whose steps all meet it. -/
theorem Run.invariant {inv : σ → Prop} {meets : σ → ε → Prop} (run : Run step start history last)
    (initial : inv start)
    (preserved : ∀ state event after, inv state → meets state event → step state event = some after → inv after)
    (all : ∀ moment ∈ history, meets moment.1 moment.2) : Throughout inv history last := by
  induction run with
  | nil => exact ⟨by simp, initial⟩
  | snoc earlier event done ih =>
      have before := ih fun moment member => all moment (by simp [member])
      exact before.snoc event (preserved _ _ _ before.2 (all (_, event) (by simp)) done)

theorem Run.split {moment : σ × ε} (run : Run step start history last) (member : moment ∈ history) :
    ∃ before rest after, history = before ++ moment :: rest ∧ Run step start before moment.1 ∧
      step moment.1 moment.2 = some after := by
  induction run with
  | nil => contradiction
  | @snoc history state after earlier event done ih =>
      rcases List.mem_append.mp member with old | new
      · obtain ⟨before, rest, next, rfl, reached, now⟩ := ih old
        exact ⟨before, rest ++ [(state, event)], next, by simp, reached, now⟩
      · rw [List.mem_singleton.mp new]
        exact ⟨history, [], after, rfl, earlier, done⟩

/-- The run of a list of events that are enabled one after another. -/
theorem Run.of_foldlM {events : List ε} (done : events.foldlM step start = some last) :
    ∃ history, Run step start history last ∧ history.map Prod.snd = events := by
  induction events using List.reverseRecOn generalizing last with
  | nil =>
      cases done
      exact ⟨[], .nil, rfl⟩
  | append_singleton earlier event ih =>
      rw [List.foldlM_append] at done
      obtain ⟨state, before, now⟩ := Option.bind_eq_some_iff.mp done
      obtain ⟨history, run, same⟩ := ih before
      refine ⟨_, run.snoc event ?_, by simp [same]⟩
      simpa using now

end ActiveBgp.Data

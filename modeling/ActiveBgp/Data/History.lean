import Mathlib.Data.List.Forall2
import Mathlib.Data.List.Induction
import Mathlib.Tactic.Common

namespace ActiveBgp.Data

variable {β : Type*} {holds : List β → β → Prop} {history : List β}

/-- Every item of the history stands in the relation to the items before it. -/
def Chronicle (holds : List β → β → Prop) (history : List β) : Prop :=
  ∀ before item after, history = before ++ item :: after → holds before item

theorem chronicle_nil : Chronicle holds [] := by
  intro before item after same
  simp at same

theorem chronicle_snoc (item : β) :
    Chronicle holds (history ++ [item]) ↔ Chronicle holds history ∧ holds history item := by
  constructor
  · intro all
    refine ⟨fun before earlier after same => ?_, all history item [] rfl⟩
    exact all before earlier (after ++ [item]) (by simp [same])
  · intro both before earlier after same
    obtain ⟨all, now⟩ := both
    rcases List.eq_nil_or_concat after with rfl | ⟨tail, last, rfl⟩
    · obtain ⟨rfl, rfl⟩ := List.append_inj' same rfl |>.imp id List.singleton_inj.mp
      exact now
    · have split : history = before ++ earlier :: tail ∧ [item] = [last] :=
        List.append_inj' (by simpa using same) rfl
      exact all before earlier tail split.1

theorem chronicle_singleton {item : β} : Chronicle holds [item] ↔ holds [] item := by
  have snoc : Chronicle holds ([] ++ [item]) ↔ Chronicle holds [] ∧ holds [] item := chronicle_snoc item
  exact snoc.trans (and_iff_right chronicle_nil)

theorem Chronicle.mem {item : β} (all : Chronicle holds history) (member : item ∈ history) :
    ∃ before after, history = before ++ item :: after ∧ holds before item := by
  obtain ⟨before, after, same⟩ := List.append_of_mem member
  exact ⟨before, after, same, all before item after same⟩

theorem Chronicle.imp {weaker : List β → β → Prop} (implies : ∀ before item, holds before item → weaker before item)
    (all : Chronicle holds history) : Chronicle weaker history :=
  fun before item after same => implies before item (all before item after same)

/-- If nothing behind the first item with the property is bad, nothing is bad behind any. -/
theorem pairwise_of_first {property bad : β → Prop}
    (behind : ∀ before item after, history = before ++ item :: after → property item →
      (∀ earlier ∈ before, ¬ property earlier) → ∀ later ∈ after, ¬ bad later) :
    history.Pairwise fun earlier later => property earlier → ¬ bad later := by
  induction history with
  | nil => exact .nil
  | cons first rest ih =>
      by_cases holds : property first
      · have fine := behind [] first rest rfl holds (by simp)
        refine List.pairwise_cons.mpr ⟨fun later member _ => fine later member, ?_⟩
        exact List.pairwise_of_forall_mem_list fun _ _ later member _ => fine later member
      · refine List.pairwise_cons.mpr ⟨fun _ _ impossible => absurd impossible holds, ih ?_⟩
        intro before item after same now none
        refine behind (first :: before) item after (by rw [same, List.cons_append]) now ?_
        exact List.forall_mem_cons.mpr ⟨holds, none⟩

theorem Chronicle.append {earlier later : List β} (first : Chronicle holds earlier)
    (second : Chronicle (fun before item => holds (earlier ++ before) item) later) : Chronicle holds (earlier ++ later) := by
  induction later using List.reverseRecOn with
  | nil => simpa using first
  | append_singleton rest item ih =>
      obtain ⟨before, now⟩ := (chronicle_snoc item).mp second
      rw [← List.append_assoc]
      exact (chronicle_snoc item).mpr ⟨ih before, now⟩

section Related

variable {α β : Type*} {R : α → β → Prop} {holds : List α → α → Prop} {meant : List β → β → Prop} {history : List α}
  {meaning : List β}

theorem Chronicle.related (related : List.Forall₂ R history meaning)
    (each : ∀ before others item other, List.Forall₂ R before others → R item other → holds before item → meant others other)
    (all : Chronicle holds history) : Chronicle meant meaning := by
  intro others other after same
  subst same
  have front := List.forall₂_take_append history others (other :: after) related
  have back := List.forall₂_drop_append history others (other :: after) related
  obtain ⟨item, rest, now, _, split⟩ := List.forall₂_cons_right_iff.mp back
  refine each _ _ item other front now (all _ item rest ?_)
  rw [← split, List.take_append_drop]

/-- Two histories that are related item by item have the same properties where these are related. -/
theorem chronicle_iff_of_forall₂ (related : List.Forall₂ R history meaning)
    (each : ∀ before others item other, List.Forall₂ R before others → R item other → (holds before item ↔ meant others other)) :
    Chronicle holds history ↔ Chronicle meant meaning :=
  ⟨Chronicle.related related fun before others item other front now => (each before others item other front now).mp,
    Chronicle.related related.flip fun others before other item front now =>
      (each before others item other front.flip now).mpr⟩

end Related

end ActiveBgp.Data

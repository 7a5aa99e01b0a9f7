import ActiveBgp.Data.Coverage
import Mathlib.Algebra.BigOperators.Group.Finset.Basic
import Mathlib.Algebra.Order.BigOperators.Group.Finset

namespace ActiveBgp.Data.Exploration

variable {α : Type*} [DecidableEq α] {rules : Rules α} {set : Finset α} {items : List α}
  {trace after : Trace α} {returned : Bool} {bound size depth : Nat}

/-- Every recorded set but the root was tried. -/
def Grown (trace : Trace α) : Prop := ∀ set, Recorded trace set → set = ∅ ∨ set ∈ tries trace

theorem Grown.tried (grown : Grown trace) (x : α) : Grown (trace ++ [.tried set x]) := by
  intro other recorded
  have old : Recorded trace other := by simpa [Recorded] using recorded
  exact (grown other old).imp id fun member => by simp [member]

theorem Grown.noted (grown : Grown trace) {moment : Moment α} (recording : moment.recording = none) :
    Grown (trace ++ [moment]) := by
  intro other recorded
  have old : Recorded trace other := by simpa [Recorded, recording] using recorded
  exact (grown other old).imp id fun member => by simp [member]

theorem Grown.recorded (grown : Grown trace) (x : α) (path : List α) :
    Grown (trace ++ [.tried set x] ++ [.recorded (insert x set) path]) := by
  intro other recorded
  simp only [Recorded, recordings_append, List.map_append, List.mem_append] at recorded
  rcases recorded with (old | impossible) | new
  · exact (grown other old).imp id fun member => by simp [member]
  · simp at impossible
  · have same : other = insert x set := by simpa using new
    exact .inr (by simp [same])

theorem Explores.grown (explores : Explores rules set items trace returned after) (grown : Grown trace) :
    Grown after := by
  induction explores with
  | done => exact grown
  | cut => exact grown
  | skip _ _ ih => exact ih grown
  | raise _ => exact grown.tried _
  | refuse _ => exact (grown.tried _).noted rfl
  | fruitless _ _ ih => exact ih ((grown.tried _).noted rfl)
  | raiseInside _ _ _ _ ih => exact ih (grown.recorded _ _)
  | found _ _ _ _ _ insideIH tailIH => exact tailIH (insideIH (grown.recorded _ _))

def visitsAt (trace : Trace α) (size : Nat) : Finset (Finset α × α) :=
  (visits trace).toFinset.filter fun visit => visit.1.card = size

def recordingsAt (trace : Trace α) (size : Nat) : Finset (Finset α × List α) :=
  (recordings trace).toFinset.filter fun recording => recording.1.card = size

theorem mem_visitsAt {visit : Finset α × α} :
    visit ∈ visitsAt trace size ↔ visit ∈ visits trace ∧ visit.1.card = size := by
  simp [visitsAt]

theorem mem_recordingsAt {recording : Finset α × List α} :
    recording ∈ recordingsAt trace size ↔ recording ∈ recordings trace ∧ recording.1.card = size := by
  simp [recordingsAt]

theorem Sound.recordingsAt_injOn (sound : Sound rules trace) (size : Nat) :
    Set.InjOn Prod.fst (recordingsAt trace size : Set (Finset α × List α)) := by
  intro first inFirst second inSecond same
  exact List.inj_on_of_nodup_map sound.distinct (mem_recordingsAt.mp inFirst).1 (mem_recordingsAt.mp inSecond).1 same

theorem Sound.card_recordingsAt_zero (sound : Sound rules trace) : (recordingsAt trace 0).card ≤ 1 := by
  refine Finset.card_le_one.mpr fun first inFirst second inSecond => sound.recordingsAt_injOn 0 inFirst inSecond ?_
  rw [Finset.card_eq_zero.mp (mem_recordingsAt.mp inFirst).2, Finset.card_eq_zero.mp (mem_recordingsAt.mp inSecond).2]

/-- The visits at a set are offers of the path that is recorded under it. -/
theorem Sound.card_visitsAt (sound : Sound rules trace)
    (short : ∀ recording ∈ recordings trace, recording.2.length ≤ bound) (size : Nat) :
    (visitsAt trace size).card ≤ (recordingsAt trace size).card * bound := by
  have offered : visitsAt trace size ⊆
      (recordingsAt trace size).biUnion fun recording => recording.2.toFinset.image fun x => (recording.1, x) := by
    intro visit member
    obtain ⟨origin, x⟩ := visit
    obtain ⟨visited, sized⟩ := mem_visitsAt.mp member
    obtain ⟨⟨path, recorded, onPath⟩, _⟩ := sound.visit visited
    exact Finset.mem_biUnion.mpr ⟨(origin, path), mem_recordingsAt.mpr ⟨recorded, sized⟩,
      Finset.mem_image.mpr ⟨x, List.mem_toFinset.mpr onPath, rfl⟩⟩
  refine (Finset.card_le_card offered).trans (Finset.card_biUnion_le_card_mul _ _ _ fun recording member => ?_)
  calc (recording.2.toFinset.image fun x => (recording.1, x)).card
      ≤ recording.2.toFinset.card := Finset.card_image_le
    _ ≤ recording.2.length := List.toFinset_card_le _
    _ ≤ bound := short recording (mem_recordingsAt.mp member).1

theorem Sound.card_recordingsAt_succ (sound : Sound rules trace) (grown : Grown trace) (size : Nat) :
    (recordingsAt trace (size + 1)).card ≤ (visitsAt trace size).card := by
  have tried : (recordingsAt trace (size + 1)).image Prod.fst ⊆
      (visitsAt trace size).image fun visit => insert visit.2 visit.1 := by
    intro set member
    obtain ⟨recording, inRecordings, rfl⟩ := Finset.mem_image.mp member
    obtain ⟨recorded, sized⟩ := mem_recordingsAt.mp inRecordings
    have nonempty : recording.1 ≠ ∅ := fun empty => by simp [empty] at sized
    obtain ⟨visit, visited, same⟩ := List.mem_map.mp ((grown _ (recorded_of_mem recorded)).resolve_left nonempty)
    have new := (sound.visit visited).2.1
    have sizes : visit.1.card + 1 = size + 1 := by rw [← Finset.card_insert_of_notMem new, same, sized]
    exact Finset.mem_image.mpr ⟨visit, mem_visitsAt.mpr ⟨visited, by omega⟩, same⟩
  calc (recordingsAt trace (size + 1)).card
      = ((recordingsAt trace (size + 1)).image Prod.fst).card :=
        (Finset.card_image_of_injOn (sound.recordingsAt_injOn _)).symm
    _ ≤ ((visitsAt trace size).image fun visit => insert visit.2 visit.1).card := Finset.card_le_card tried
    _ ≤ (visitsAt trace size).card := Finset.card_image_le

theorem Sound.card_visitsAt_le_pow (sound : Sound rules trace) (grown : Grown trace)
    (short : ∀ recording ∈ recordings trace, recording.2.length ≤ bound) (size : Nat) :
    (visitsAt trace size).card ≤ bound ^ (size + 1) := by
  induction size with
  | zero =>
      have root := Nat.mul_le_mul_right bound sound.card_recordingsAt_zero
      simpa using (sound.card_visitsAt short 0).trans root
  | succ size ih =>
      calc (visitsAt trace (size + 1)).card
          ≤ (recordingsAt trace (size + 1)).card * bound := sound.card_visitsAt short _
        _ ≤ (visitsAt trace size).card * bound := Nat.mul_le_mul_right _ (sound.card_recordingsAt_succ grown size)
        _ ≤ bound ^ (size + 1) * bound := Nat.mul_le_mul_right _ ih
        _ = bound ^ (size + 1 + 1) := (pow_succ bound (size + 1)).symm

/-- Sets with more than `depth` elements are never tried, so the visits end on the level below. -/
theorem Sound.length_tries_le (sound : Sound rules trace) (grown : Grown trace) (distinct : (visits trace).Nodup)
    (short : ∀ recording ∈ recordings trace, recording.2.length ≤ bound)
    (shallow : ∀ set, ¬ rules.conflict set → set.card ≤ depth) :
    (tries trace).length ≤ ∑ size ∈ Finset.range depth, bound ^ (size + 1) := by
  have level : ∀ visit ∈ (visits trace).toFinset, visit.1.card ∈ Finset.range depth := by
    intro visit member
    obtain ⟨_, new, allowed, _⟩ := sound.visit (List.mem_toFinset.mp member)
    have sized := shallow _ allowed.2
    rw [Finset.card_insert_of_notMem new] at sized
    exact Finset.mem_range.mpr (by omega)
  calc (tries trace).length
      = (visits trace).toFinset.card := by rw [tries, List.length_map, List.toFinset_card_of_nodup distinct]
    _ = ∑ size ∈ Finset.range depth, (visitsAt trace size).card := Finset.card_eq_sum_card_fiberwise level
    _ ≤ ∑ size ∈ Finset.range depth, bound ^ (size + 1) :=
        Finset.sum_le_sum fun size _ => sound.card_visitsAt_le_pow grown short size

end ActiveBgp.Data.Exploration

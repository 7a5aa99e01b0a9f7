import ActiveBgp.Data.Exploration

namespace ActiveBgp.Data.Exploration

variable {α : Type*} [DecidableEq α] {rules : Rules α} {set : Finset α} {items : List α}
  {trace after : Trace α} {returned : Bool}

/-! # What an exploration covers, and what it repeats

A search that is neither cut off nor refused comes to every offer of every
recorded path.  It comes to no offer twice, so a set is tried twice only if two
recorded paths offer it and the first try of it brought nothing.
-/

/-- The offer was tried, or its set has a recorded path. -/
def Covers (trace : Trace α) (origin : Finset α) (x : α) : Prop :=
  (origin, x) ∈ visits trace ∨ Recorded trace (insert x origin)

def Allowed (rules : Rules α) (origin : Finset α) (x : α) : Prop :=
  ¬ rules.fixed x ∧ ¬ rules.conflict (insert x origin)

theorem Covers.append {origin : Finset α} {x : α} (covers : Covers trace origin x) (more : Trace α) :
    Covers (trace ++ more) origin x := by
  rcases covers with visited | recorded
  · exact .inl (by simp [visited])
  · exact .inr (recorded.append more)

theorem Explores.covers (explores : Explores rules set items trace returned after) (ended : returned = true)
    (accepted : ∀ set, .refused set ∉ after) :
    (∀ x ∈ items, Allowed rules set x → Covers after set x) ∧
    ∀ recording ∈ recordings after, recording ∉ recordings trace →
      ∀ x ∈ recording.2, Allowed rules recording.1 x → Covers after recording.1 x := by
  induction explores with
  | done => exact ⟨by simp, fun recording member new => absurd member new⟩
  | cut => contradiction
  | raise => contradiction
  | raiseInside => contradiction
  | @refuse set x => exact absurd (by simp) (accepted (insert x set))
  | skip skipped tail ih =>
      obtain ⟨more, rfl⟩ := tail.extends
      obtain ⟨rest, recorded⟩ := ih ended accepted
      refine ⟨fun x member allowed => ?_, recorded⟩
      rcases List.mem_cons.mp member with rfl | later
      · rcases skipped with fixed | conflict | known
        · exact absurd fixed allowed.1
        · exact absurd conflict allowed.2
        · exact .inr (known.append more)
      · exact rest x later allowed
  | fruitless tried tail ih =>
      obtain ⟨more, rfl⟩ := tail.extends
      obtain ⟨rest, recorded⟩ := ih ended accepted
      refine ⟨fun x member allowed => ?_, fun recording member new => recorded recording member (by simpa using new)⟩
      rcases List.mem_cons.mp member with rfl | later
      · exact .inl (by simp)
      · exact rest x later allowed
  | @found set x rest trace path middle returned after tried valid novel inside tail insideIH tailIH =>
      obtain ⟨inner, rfl⟩ := inside.extends
      obtain ⟨more, rfl⟩ := tail.extends
      obtain ⟨onPath, insideRecorded⟩ := insideIH rfl fun set member => accepted set (List.mem_append_left more member)
      obtain ⟨rest, recorded⟩ := tailIH ended accepted
      refine ⟨fun y member allowed => ?_, fun recording member new => ?_⟩
      · rcases List.mem_cons.mp member with rfl | later
        · exact .inl (by simp)
        · exact rest y later allowed
      · by_cases early : recording ∈ recordings
            (trace ++ [.tried set x] ++ [.recorded (insert x set) path] ++ inner)
        · intro y inPath allowed
          refine Covers.append ?_ more
          by_cases first : recording ∈ recordings (trace ++ [.tried set x] ++ [.recorded (insert x set) path])
          · obtain rfl : recording = (insert x set, path) := by simpa [new] using first
            exact onPath y inPath allowed
          · exact insideRecorded recording early first y inPath allowed
        · exact recorded recording member early

/-- The visits of the search of a path that was just found are at new sets. -/
theorem inner_visits {x : α} {path : List α} {begun : Trace α} (tried : ¬ Skipped rules trace set x)
    (nodup : ∀ path, rules.valid path → path.Nodup) (valid : rules.valid path)
    (start : begun = trace ++ [.tried set x] ++ [.recorded (insert x set) path])
    (inside : Explores rules (insert x set) path begun returned after)
    (ih : Recorded begun (insert x set) → path.Nodup → ∃ more, visits after = visits begun ++ more ∧ more.Nodup ∧
      ∀ visit ∈ more, visit.1 = insert x set ∧ visit.2 ∈ path ∨ ¬ Recorded begun visit.1 ∧ Recorded after visit.1) :
    ∃ inner, visits after = visits trace ++ (set, x) :: inner ∧ inner.Nodup ∧
      ∀ visit ∈ inner, ¬ Recorded trace visit.1 ∧ Recorded after visit.1 := by
  have unrecorded : ¬ Recorded trace (insert x set) := fun old => tried (.inr (.inr old))
  have recorded : Recorded begun (insert x set) := by
    simp [Recorded, start]
  obtain ⟨inner, same, innerNodup, origins⟩ := ih recorded (nodup path valid)
  obtain ⟨more, rfl⟩ := inside.extends
  subst start
  refine ⟨inner, by simpa using same, innerNodup, fun visit member => ?_⟩
  rcases origins visit member with ⟨atSet, _⟩ | ⟨unknown, known⟩
  · rw [atSet]
    exact ⟨unrecorded, recorded.append more⟩
  · exact ⟨fun old => unknown (by rw [List.append_assoc]; exact old.append _), known⟩

/-- The new visits are offers of the path that is searched, or of new recordings; none comes twice. -/
theorem Explores.visits_new (explores : Explores rules set items trace returned after)
    (nodup : ∀ path, rules.valid path → path.Nodup) (known : Recorded trace set) (distinct : items.Nodup) :
    ∃ more, visits after = visits trace ++ more ∧ more.Nodup ∧
      ∀ visit ∈ more, visit.1 = set ∧ visit.2 ∈ items ∨ ¬ Recorded trace visit.1 ∧ Recorded after visit.1 := by
  induction explores with
  | done => exact ⟨[], by simp⟩
  | cut => exact ⟨[], by simp⟩
  | @raise set x rest trace tried => exact ⟨[(set, x)], by simp⟩
  | @refuse set x rest trace tried => exact ⟨[(set, x)], by simp⟩
  | skip skipped tail ih =>
      obtain ⟨more, same, moreNodup, origins⟩ := ih known (List.nodup_cons.mp distinct).2
      refine ⟨more, same, moreNodup, fun visit member => (origins visit member).imp ?_ id⟩
      exact And.imp id (List.mem_cons_of_mem _)
  | @fruitless set x rest trace returned after tried tail ih =>
      obtain ⟨outside, restDistinct⟩ := List.nodup_cons.mp distinct
      have unchanged (other : Finset α) :
          Recorded (trace ++ [.tried set x] ++ [.fruitless (insert x set)]) other ↔ Recorded trace other := by
        simp [Recorded]
      obtain ⟨more, same, moreNodup, origins⟩ := ih ((unchanged set).mpr known) restDistinct
      refine ⟨(set, x) :: more, by simpa using same, List.nodup_cons.mpr ⟨fun member => ?_, moreNodup⟩, ?_⟩
      · rcases origins _ member with ⟨_, later⟩ | ⟨new, _⟩
        · exact outside later
        · exact new ((unchanged set).mpr known)
      · intro visit member
        rcases List.mem_cons.mp member with rfl | later
        · exact .inl ⟨rfl, by simp⟩
        · refine (origins visit later).imp (And.imp id (List.mem_cons_of_mem _)) ?_
          exact And.imp (fun new old => new ((unchanged _).mpr old)) id
  | @raiseInside set x rest trace path after tried valid novel inside ih =>
      obtain ⟨inner, same, innerNodup, new⟩ := inner_visits tried nodup valid rfl inside ih
      refine ⟨(set, x) :: inner, same, List.nodup_cons.mpr ⟨fun member => (new _ member).1 known, innerNodup⟩, ?_⟩
      intro visit member
      rcases List.mem_cons.mp member with rfl | later
      · exact .inl ⟨rfl, by simp⟩
      · exact .inr (new visit later)
  | @found set x rest trace path middle returned after tried valid novel inside tail insideIH tailIH =>
      obtain ⟨inner, same, innerNodup, new⟩ := inner_visits tried nodup valid rfl inside insideIH
      obtain ⟨outside, restDistinct⟩ := List.nodup_cons.mp distinct
      obtain ⟨added, rfl⟩ : ∃ added, middle = trace ++ added := by
        obtain ⟨added, rfl⟩ := inside.extends
        exact ⟨_, by simp only [List.append_assoc]; rfl⟩
      obtain ⟨more, tailSame, moreNodup, origins⟩ := tailIH (known.append added) restDistinct
      obtain ⟨extra, rfl⟩ := tail.extends
      refine ⟨(set, x) :: (inner ++ more), by rw [tailSame, same]; simp, List.nodup_cons.mpr ⟨?_, ?_⟩, ?_⟩
      · intro member
        rcases List.mem_append.mp member with early | late
        · exact (new _ early).1 known
        · rcases origins _ late with ⟨_, later⟩ | ⟨unknown, _⟩
          · exact outside later
          · exact unknown (known.append added)
      · -- An inner visit is at a set that the inner search recorded.
        refine List.nodup_append.mpr ⟨innerNodup, moreNodup, fun visit early other late same => ?_⟩
        subst same
        rcases origins _ late with ⟨atSet, _⟩ | ⟨unknown, _⟩
        · exact (new _ early).1 (atSet ▸ known)
        · exact unknown (new _ early).2
      · intro visit member
        rcases List.mem_cons.mp member with rfl | later
        · exact .inl ⟨rfl, by simp⟩
        rcases List.mem_append.mp later with early | late
        · exact .inr ⟨(new _ early).1, (new _ early).2.append extra⟩
        · refine (origins visit late).imp (And.imp id (List.mem_cons_of_mem _)) ?_
          exact And.imp (fun unknown old => unknown (old.append added)) id

section Root

variable {path : List α} (explores : Explores rules ∅ path [.recorded ∅ path] returned after)

include explores

/-- A search from the root that is neither cut off nor refused covers all offers. -/
theorem Explores.covers_root (ended : returned = true) (accepted : ∀ set, .refused set ∉ after) :
    ∀ recording ∈ recordings after, ∀ x ∈ recording.2, Allowed rules recording.1 x → Covers after recording.1 x := by
  obtain ⟨onPath, others⟩ := explores.covers ended accepted
  intro recording member x inside allowed
  by_cases root : recording ∈ recordings [Moment.recorded ∅ path]
  · obtain rfl : recording = (∅, path) := by simpa using root
    exact onPath x inside allowed
  · exact others recording member root x inside allowed

theorem Explores.visits_root (nodup : ∀ path, rules.valid path → path.Nodup) (valid : rules.valid path) :
    (visits after).Nodup := by
  have known : Recorded [Moment.recorded ∅ path] ∅ := List.mem_singleton.mpr rfl
  obtain ⟨more, same, moreNodup, _⟩ := explores.visits_new nodup known (nodup path valid)
  rw [same]
  simpa using moreNodup

end Root

def Offered (recording : Finset α × List α) (set : Finset α) : Prop :=
  ∃ x ∈ recording.2, x ∉ recording.1 ∧ insert x recording.1 = set

instance (recording : Finset α × List α) (set : Finset α) : Decidable (Offered recording set) := by
  unfold Offered
  infer_instance

def Moment.failure : Moment α → Option (Finset α)
  | .refused set => some set
  | .fruitless set => some set
  | _ => none

def failures (trace : Trace α) : List (Finset α) := trace.filterMap Moment.failure

omit [DecidableEq α] in
theorem mem_failures {set : Finset α} :
    set ∈ failures trace ↔ .refused set ∈ trace ∨ .fruitless set ∈ trace := by
  rw [failures, List.mem_filterMap]
  constructor
  · intro found
    obtain ⟨moment, member, failed⟩ := found
    cases moment <;> simp_all [Moment.failure]
  · intro failed
    rcases failed with refused | fruitless
    · exact ⟨_, refused, rfl⟩
    · exact ⟨_, fruitless, rfl⟩

/-- No set whose try brought nothing is offered by two recorded paths. -/
def Unshared (trace : Trace α) : Prop :=
  ∀ set ∈ failures trace, ∀ first ∈ recordings trace, ∀ second ∈ recordings trace,
    Offered first set → Offered second set → first.1 = second.1

instance (trace : Trace α) : Decidable (Unshared trace) := by
  unfold Unshared
  infer_instance

theorem Sound.visit (sound : Sound rules trace) {origin : Finset α} {x : α} (visited : (origin, x) ∈ visits trace) :
    (∃ path, (origin, path) ∈ recordings trace ∧ x ∈ path) ∧ x ∉ origin ∧
      Allowed rules origin x ∧ Derived rules (recordings trace) (insert x origin) := by
  obtain ⟨moment, member, shown⟩ := List.mem_filterMap.mp visited
  obtain rfl : moment = .tried origin x := by
    cases moment <;> simp_all [Moment.visit]
  obtain ⟨before, after, rfl, holds⟩ := sound.justified.mem member
  have justified := holds origin x rfl
  have subset : recordings before ⊆ recordings (before ++ .tried origin x :: after) := by simp
  obtain ⟨path, recorded, inside⟩ := justified.offered
  obtain ⟨order, nodup, same, free, chain⟩ := justified.derived
  have inOrder : x ∈ order := by
    rw [← List.mem_toFinset, same]
    exact Finset.mem_insert_self x origin
  exact ⟨⟨path, subset recorded, inside⟩, justified.new, ⟨free x inOrder, justified.allowed⟩,
    justified.derived.mono subset⟩

theorem tries_nodup_of_new
    (new : Chronicle (fun before moment => ∀ origin x, moment = .tried origin x → insert x origin ∉ tries before) trace) :
    (tries trace).Nodup := by
  induction trace using List.reverseRecOn with
  | nil => exact List.nodup_nil
  | append_singleton earlier moment ih =>
      obtain ⟨before, now⟩ := (chronicle_snoc moment).mp new
      cases moment with
      | tried origin x =>
          have split : tries (earlier ++ [.tried origin x]) = tries earlier ++ [insert x origin] := by simp
          rw [split]
          exact List.nodup_append.mpr ⟨ih before, List.nodup_singleton _, fun set old other single same =>
            now origin x rfl (by rw [List.mem_singleton.mp single] at same; exact same ▸ old)⟩
      | refused set => simpa using ih before
      | fruitless set => simpa using ih before
      | recorded set path => simpa using ih before

/-- A set that was tried before without success is not shared, so it is not tried again. -/
theorem tries_nodup (sound : Sound rules trace) (distinct : (visits trace).Nodup) (unshared : Unshared trace) :
    (tries trace).Nodup := by
  refine tries_nodup_of_new fun before moment after split origin x isTry again => ?_
  subst isTry
  have justified := sound.justified before _ after split origin x rfl
  -- The earlier try has come to an end, and not with a recording.
  have answered : insert x origin ∈ answers before := by
    rw [justified.settled]
    exact List.mem_cons_of_mem _ again
  have failed : .refused (insert x origin) ∈ trace ∨ .fruitless (insert x origin) ∈ trace := by
    obtain ⟨earlier, member, answer⟩ := List.mem_filterMap.mp answered
    cases earlier with
    | tried other y => simp at answer
    | refused set =>
        cases answer
        exact .inl (by simp [split, member])
    | fruitless set =>
        cases answer
        exact .inr (by simp [split, member])
    | recorded set path =>
        cases answer
        exact absurd (recorded_of_mem (List.mem_filterMap.mpr ⟨_, member, rfl⟩)) justified.unrecorded
  obtain ⟨⟨other, y⟩, visited, same⟩ := List.mem_map.mp again
  have visitedLater : (other, y) ∈ visits trace := by simp [split, visited]
  obtain ⟨⟨otherPath, otherRecorded, onOther⟩, otherNew, _⟩ := sound.visit visitedLater
  obtain ⟨path, recorded, onPath⟩ := justified.offered
  obtain rfl : other = origin := unshared _ (mem_failures.mpr failed) _ otherRecorded (origin, path) (by simp [split, recorded])
    ⟨y, onOther, otherNew, same⟩ ⟨x, onPath, justified.new, rfl⟩
  obtain rfl := (Finset.insert_inj otherNew).mp same
  rw [split, visits_append, visits_cons] at distinct
  exact (List.nodup_append.mp distinct).2.2 _ visited _ (by simp) rfl

omit [DecidableEq α] in
theorem eq_of_answer (distinct : (answers trace).Nodup) {first second : Moment α} (inFirst : first ∈ trace)
    (inSecond : second ∈ trace) {set : Finset α} (firstAnswer : first.answer = some set)
    (secondAnswer : second.answer = some set) : first = second := by
  induction trace with
  | nil => simp at inFirst
  | cons moment rest ih =>
      rw [answers_cons] at distinct
      obtain ⟨_, restDistinct, disjoint⟩ := List.nodup_append.mp distinct
      have later {other : Moment α} (member : other ∈ rest) (answer : other.answer = some set) : set ∈ answers rest :=
        List.mem_filterMap.mpr ⟨other, member, answer⟩
      rcases List.mem_cons.mp inFirst with rfl | firstLater
      · rcases List.mem_cons.mp inSecond with rfl | secondLater
        · rfl
        · exact absurd rfl (disjoint set (by simp [firstAnswer]) set (later secondLater secondAnswer))
      · rcases List.mem_cons.mp inSecond with rfl | secondLater
        · exact absurd rfl (disjoint set (by simp [secondAnswer]) set (later firstLater firstAnswer))
        · exact ih restDistinct firstLater secondLater

/-- Where every offer is covered and no set is tried twice, nothing that failed is shared. -/
theorem unshared_of_nodup (sound : Sound rules trace) (settled : Settled trace)
    (covered : ∀ recording ∈ recordings trace, ∀ x ∈ recording.2, Allowed rules recording.1 x →
      Covers trace recording.1 x)
    (nodup : (tries trace).Nodup) : Unshared trace := by
  intro set failed firstRecording firstRecorded secondRecording secondRecorded firstOffer secondOffer
  obtain ⟨first, firstPath⟩ := firstRecording
  obtain ⟨second, secondPath⟩ := secondRecording
  obtain ⟨x, onFirst, newFirst, rfl⟩ := firstOffer
  obtain ⟨y, onSecond, newSecond, same⟩ := secondOffer
  have nonempty {visit : Finset α × α} : insert visit.2 visit.1 ≠ ∅ := Finset.insert_ne_empty _ _
  obtain ⟨moment, member, answer, notRecorded⟩ : ∃ moment ∈ trace, moment.answer = some (insert x first) ∧
      moment.recording = none := by
    rcases mem_failures.mp failed with refused | fruitless
    · exact ⟨_, refused, rfl, rfl⟩
    · exact ⟨_, fruitless, rfl, rfl⟩
  have answered : insert x first ∈ answers trace := List.mem_filterMap.mpr ⟨moment, member, answer⟩
  have tried : insert x first ∈ tries trace := by
    rw [settled] at answered
    exact (List.mem_cons.mp answered).resolve_left (Finset.insert_ne_empty _ _)
  -- Some visit tried the set, so the rules allow both offers.
  obtain ⟨⟨origin, z⟩, visited, shown⟩ := List.mem_map.mp tried
  obtain ⟨_, _, allowed, order, _, elements, free, _⟩ := sound.visit visited
  have allowedFrom {other : Finset α} {w : α} (equal : insert w other = insert x first) : Allowed rules other w := by
    refine ⟨free w ?_, ?_⟩
    · rw [← List.mem_toFinset, elements, shown, ← equal]
      exact Finset.mem_insert_self w other
    · rw [equal, ← shown]
      exact allowed.2
  have unrecorded : ¬ Recorded trace (insert x first) := by
    intro recorded
    obtain ⟨⟨_, path⟩, inRecordings, rfl⟩ := List.mem_map.mp recorded
    obtain ⟨recording, inTrace, shownRecording⟩ := List.mem_filterMap.mp inRecordings
    have distinct : (answers trace).Nodup := by
      rw [settled]
      refine List.nodup_cons.mpr ⟨fun empty => ?_, nodup⟩
      obtain ⟨visit, _, isEmpty⟩ := List.mem_map.mp empty
      exact Finset.insert_ne_empty _ _ isEmpty
    have answerRecording : recording.answer = some (insert x first) := by
      cases recording with
      | recorded set path =>
          cases shownRecording
          rfl
      | _ => cases shownRecording
    obtain rfl := eq_of_answer distinct member inTrace answer answerRecording
    rw [notRecorded] at shownRecording
    contradiction
  have visitFirst := (covered _ firstRecorded x onFirst (allowedFrom rfl)).resolve_right unrecorded
  have visitSecond := (covered _ secondRecorded y onSecond (allowedFrom same)).resolve_right (by rwa [same])
  exact (Prod.mk.inj (List.inj_on_of_nodup_map nodup visitFirst visitSecond same.symm)).1

end ActiveBgp.Data.Exploration

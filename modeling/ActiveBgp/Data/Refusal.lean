import ActiveBgp.Data.Coverage

namespace ActiveBgp.Data.Exploration

variable {α : Type*} [DecidableEq α] {rules : Rules α} {set origin : Finset α} {items rest path : List α}
  {trace before after new more : Trace α} {returned : Bool} {x : α}

/-! # What comes after a refused try

A refused try ends the search of its own path only.  The searches around that one
go on with what they have left, so nothing more is tried exactly if they have
nothing left.
-/

/-- A search that comes to the element now, or once more, does not try it. -/
def Finished (rules : Rules α) (trace : Trace α) (set : Finset α) (x : α) : Prop :=
  Skipped rules trace set x ∨ (set, x) ∈ visits trace

theorem Skipped.append (skipped : Skipped rules trace set x) (more : Trace α) : Skipped rules (trace ++ more) set x :=
  skipped.imp id (Or.imp id (Recorded.append · more))

theorem Finished.append (finished : Finished rules trace set x) (more : Trace α) :
    Finished rules (trace ++ more) set x :=
  finished.imp (Skipped.append · more) fun visited => by simp [visited]

theorem Covers.finished (covers : Allowed rules set x → Covers trace set x) : Finished rules trace set x := by
  by_cases fixed : rules.fixed x
  · exact .inl (.inl fixed)
  by_cases conflict : rules.conflict (insert x set)
  · exact .inl (.inr (.inl conflict))
  rcases covers ⟨fixed, conflict⟩ with visited | recorded
  · exact .inr visited
  · exact .inl (.inr (.inr recorded))

theorem Explores.starts {moment : Moment α} (explores : Explores rules set items trace returned after)
    (same : after = trace ++ moment :: more) : ∃ x, moment = .tried set x := by
  induction explores with
  | done => simp at same
  | cut => simp at same
  | skip _ _ ih => exact ih same
  | @raise set x rest trace tried =>
      have first := List.append_cancel_left same
      exact ⟨x, (List.cons.inj first).1.symm⟩
  | @refuse set x rest trace tried =>
      rw [List.append_assoc] at same
      exact ⟨x, (List.cons.inj (List.append_cancel_left same)).1.symm⟩
  | @fruitless set x rest trace returned after tried tail ih =>
      obtain ⟨later, rfl⟩ := tail.extends
      rw [List.append_assoc, List.append_assoc] at same
      exact ⟨x, (List.cons.inj (List.append_cancel_left same)).1.symm⟩
  | @raiseInside set x rest trace path after tried valid novel inside ih =>
      obtain ⟨later, rfl⟩ := inside.extends
      rw [List.append_assoc, List.append_assoc] at same
      exact ⟨x, (List.cons.inj (List.append_cancel_left same)).1.symm⟩
  | @found set x rest trace path middle returned after tried valid novel inside tail insideIH tailIH =>
      obtain ⟨inner, rfl⟩ := inside.extends
      obtain ⟨later, rfl⟩ := tail.extends
      simp only [List.append_assoc] at same
      exact ⟨x, (List.cons.inj (List.append_cancel_left same)).1.symm⟩

theorem Explores.adds_nothing (explores : Explores rules set items trace returned (trace ++ more))
    (none : visits more = []) : more = [] := by
  cases more with
  | nil => rfl
  | cons moment more =>
      obtain ⟨x, rfl⟩ := explores.starts rfl
      simp at none

theorem Explores.idle (explores : Explores rules set items trace returned after)
    (skipped : ∀ x ∈ items, Skipped rules trace set x) : after = trace := by
  induction explores with
  | done => rfl
  | cut => rfl
  | skip _ _ ih => exact ih fun x later => skipped x (List.mem_cons_of_mem _ later)
  | raise tried => exact absurd (skipped _ List.mem_cons_self) tried
  | refuse tried => exact absurd (skipped _ List.mem_cons_self) tried
  | fruitless tried => exact absurd (skipped _ List.mem_cons_self) tried
  | raiseInside tried => exact absurd (skipped _ List.mem_cons_self) tried
  | found tried => exact absurd (skipped _ List.mem_cons_self) tried

/-- A search that tries nothing, and is not cut off, skips all its elements. -/
theorem Explores.skips (explores : Explores rules set items trace returned after) (same : after = trace)
    (ended : returned = true) : ∀ x ∈ items, Skipped rules trace set x := by
  induction explores with
  | done => simp
  | cut => contradiction
  | skip skipped _ ih => exact List.forall_mem_cons.mpr ⟨skipped, ih same ended⟩
  | raise tried => contradiction
  | refuse tried => simp [List.append_assoc] at same
  | fruitless tried tail =>
      obtain ⟨later, rfl⟩ := tail.extends
      simp [List.append_assoc] at same
  | raiseInside tried => contradiction
  | found tried valid novel inside tail =>
      obtain ⟨inner, rfl⟩ := inside.extends
      obtain ⟨later, rfl⟩ := tail.extends
      simp [List.append_assoc] at same

/-- A search begins with none of its elements visited. -/
structure Entered (trace : Trace α) (set : Finset α) (items : List α) : Prop where
  known : Recorded trace set
  distinct : items.Nodup
  fresh : ∀ x ∈ items, (set, x) ∉ visits trace
  origins : ∀ visit ∈ visits trace, Recorded trace visit.1

namespace Entered

section Outside

omit [DecidableEq α]

theorem root (distinct : path.Nodup) : Entered [.recorded ∅ path] ∅ path where
  known := List.mem_singleton.mpr rfl
  distinct := distinct
  fresh := by simp
  origins := by simp

variable (entered : Entered trace set (x :: rest))

include entered

theorem tail : Entered trace set rest where
  known := entered.known
  distinct := (List.nodup_cons.mp entered.distinct).2
  fresh y later := entered.fresh y (List.mem_cons_of_mem _ later)
  origins := entered.origins

theorem passed (more : Trace α) (origins : ∀ visit ∈ visits more, visit = (set, x) ∨
    ¬ Recorded trace visit.1 ∧ Recorded (trace ++ more) visit.1) : Entered (trace ++ more) set rest where
  known := entered.known.append more
  distinct := (List.nodup_cons.mp entered.distinct).2
  fresh y later := by
    have outside := (List.nodup_cons.mp entered.distinct).1
    rw [visits_append, List.mem_append]
    intro visited
    rcases visited with old | recent
    · exact entered.fresh y (List.mem_cons_of_mem _ later) old
    · rcases origins _ recent with same | unknown
      · exact outside ((Prod.mk.inj same).2 ▸ later)
      · exact unknown.1 entered.known
  origins visit visited := by
    rw [visits_append, List.mem_append] at visited
    rcases visited with old | recent
    · exact (entered.origins visit old).append more
    · rcases origins visit recent with rfl | unknown
      · exact entered.known.append more
      · exact unknown.2

end Outside

variable (entered : Entered trace set (x :: rest))

include entered

theorem fruitless : Entered (trace ++ [.tried set x] ++ [.fruitless (insert x set)]) set rest := by
  rw [List.append_assoc]
  exact entered.passed _ fun visit visited => .inl (by simpa using visited)

theorem inside (tried : ¬ Skipped rules trace set x) (distinct : path.Nodup) :
    Entered (trace ++ [.tried set x] ++ [.recorded (insert x set) path]) (insert x set) path where
  known := by simp [Recorded]
  distinct := distinct
  fresh y _ visited := by
    have unrecorded : ¬ Recorded trace (insert x set) := fun known => tried (.inr (.inr known))
    simp only [visits_append, visits_cons, visit_tried, visit_recorded, visits_nil, Option.toList_some,
      Option.toList_none, List.append_nil, List.mem_append, List.mem_singleton] at visited
    rcases visited with old | same
    · exact unrecorded (entered.origins _ old)
    · exact unrecorded ((Prod.mk.inj same).1.symm ▸ entered.known)
  origins visit visited := by
    simp only [visits_append, visits_cons, visit_tried, visit_recorded, visits_nil, Option.toList_some,
      Option.toList_none, List.append_nil, List.mem_append, List.mem_singleton] at visited
    rw [List.append_assoc]
    rcases visited with old | rfl
    · exact (entered.origins visit old).append _
    · exact entered.known.append _

/-- The search behind a path that was found is entered as the one before it. -/
theorem found (nodup : ∀ path, rules.valid path → path.Nodup) (tried : ¬ Skipped rules trace set x)
    (valid : rules.valid path) {middle : Trace α}
    (inside : Explores rules (insert x set) path (trace ++ [.tried set x] ++ [.recorded (insert x set) path])
      returned middle) : Entered middle set rest := by
  have distinct := nodup path valid
  have within := entered.inside tried distinct
  obtain ⟨inner, same, _, new⟩ :=
    inner_visits tried nodup valid rfl inside fun known distinct => inside.visits_new nodup known distinct
  obtain ⟨more, rfl⟩ := inside.extends
  simp only [List.append_assoc] at same new ⊢
  refine entered.passed _ fun visit visited => ?_
  rw [visits_append] at same
  rw [List.append_cancel_left same] at visited
  rcases List.mem_cons.mp visited with rfl | later
  · exact .inl rfl
  · exact .inr (new visit later)

/-- What is tried after a path was found, and before its search ends, is not an element of the path before it. -/
theorem elsewhere (nodup : ∀ path, rules.valid path → path.Nodup) (tried : ¬ Skipped rules trace set x)
    (valid : rules.valid path) {y : α}
    (inside : Explores rules (insert x set) path (trace ++ [.tried set x] ++ [.recorded (insert x set) path])
      returned (trace ++ [.tried set x] ++ [.recorded (insert x set) path] ++ new ++ .tried origin y :: more)) :
    set ≠ origin := by
  obtain ⟨inner, same, _, unknown⟩ :=
    inner_visits tried nodup valid rfl inside fun known distinct => inside.visits_new nodup known distinct
  have within : inner = visits new ++ (origin, y) :: visits more := by simpa using same.symm
  rintro rfl
  exact (unknown (set, y) (by simp [within])).1 entered.known

end Entered

/-- When the try of an element of the path of `origin` is refused after `before`, nothing is left of the items of
`set`, and of the paths that were recorded after `trace`. -/
structure Quiet (rules : Rules α) (trace before : Trace α) (origin set : Finset α) (items : List α) : Prop where
  here : set ≠ origin → ∀ x ∈ items, Finished rules before set x
  others : ∀ recording ∈ recordings before, recording ∉ recordings trace → recording.1 ≠ origin →
    ∀ x ∈ recording.2, Finished rules before recording.1 x

namespace Quiet

theorem tail (quiet : Quiet rules trace before origin set (x :: rest)) : Quiet rules trace before origin set rest :=
  ⟨fun other y later => quiet.here other y (List.mem_cons_of_mem _ later), quiet.others⟩

theorem cons (finished : Finished rules before set x) (quiet : Quiet rules trace before origin set rest) :
    Quiet rules trace before origin set (x :: rest) :=
  ⟨fun other => List.forall_mem_cons.mpr ⟨finished, quiet.here other⟩, quiet.others⟩

theorem mono {later : Trace α} (quiet : Quiet rules trace before origin set items)
    (subset : recordings trace ⊆ recordings later) : Quiet rules later before origin set items :=
  ⟨quiet.here, fun recording member unknown => quiet.others recording member fun old => unknown (subset old)⟩

theorem mem_found {recording : Finset α × List α} :
    recording ∈ recordings (trace ++ [.tried set x] ++ [.recorded (insert x set) path]) ↔
      recording ∈ recordings trace ∨ recording = (insert x set, path) := by
  simp

theorem inside (quiet : Quiet rules trace before origin set (x :: rest)) (tried : ¬ Skipped rules trace set x)
    (grown : before = trace ++ [.tried set x] ++ [.recorded (insert x set) path] ++ new) :
    Quiet rules (trace ++ [.tried set x] ++ [.recorded (insert x set) path]) before origin (insert x set) path where
  here other := by
    have known : (insert x set, path) ∈ recordings before := by simp [grown]
    have unknown : (insert x set, path) ∉ recordings trace := fun old => tried (.inr (.inr (recorded_of_mem old)))
    exact quiet.others (insert x set, path) known unknown other
  others recording member unknown := quiet.others recording member fun old => unknown (mem_found.mpr (.inl old))

theorem found (quiet : Quiet rules (trace ++ [.tried set x] ++ [.recorded (insert x set) path]) before origin
    (insert x set) path) (finished : ∀ y ∈ x :: rest, Finished rules before set y) :
    Quiet rules trace before origin set (x :: rest) where
  here _ := finished
  others recording member unknown other := by
    by_cases first : recording = (insert x set, path)
    · subst first
      exact quiet.here other
    · exact quiet.others recording member (fun old => (mem_found.mp old).elim unknown first) other

/-- After the search of a path that was found, and not refused, only the other elements are left. -/
theorem behind (quiet : Quiet rules after (after ++ new) origin set rest)
    (inside : Explores rules (insert x set) path (trace ++ [.tried set x] ++ [.recorded (insert x set) path]) true after)
    (accepted : ∀ other, .refused other ∉ after) : Quiet rules trace (after ++ new) origin set (x :: rest) := by
  obtain ⟨inner, grown⟩ := inside.extends
  obtain ⟨onPath, insideRecorded⟩ := inside.covers rfl accepted
  refine ⟨fun other => List.forall_mem_cons.mpr ⟨.inr (by simp [grown]), quiet.here other⟩, ?_⟩
  intro recording member unknown other y inPath
  by_cases early : recording ∈ recordings after
  · refine Finished.append (Covers.finished fun allowed => ?_) new
    by_cases first : recording = (insert x set, path)
    · subst first
      exact onPath y inPath allowed
    · exact insideRecorded recording early (fun old => (mem_found.mp old).elim unknown first) y inPath allowed
  · exact quiet.others recording member early other y inPath

end Quiet

section Refusal

variable {y : α} {rejected : Finset α} {later : Trace α}

theorem Explores.before_refusal (explores : Explores rules set items trace returned after)
    (accepted : ∀ other, .refused other ∉ trace)
    (same : after = before ++ .tried origin y :: .refused rejected :: later) : ∃ new, before = trace ++ new := by
  obtain ⟨more, rfl⟩ := explores.extends
  rcases List.append_eq_append_iff.mp same with ⟨new, grown, _⟩ | ⟨rest, shorter, others⟩
  · exact ⟨new, grown⟩
  · cases rest with
    | nil => exact ⟨[], by simpa using shorter.symm⟩
    | cons first rest =>
        cases rest with
        | nil =>
            -- The search would start with the refusal.
            obtain ⟨_, rfl⟩ := List.cons.inj others
            obtain ⟨x, impossible⟩ := explores.starts rfl
            cases impossible
        | cons second rest =>
            obtain ⟨_, _, _⟩ : Moment.tried origin y = first ∧ Moment.refused rejected = second ∧ later = rest ++ more := by
              simpa using others
            exact absurd (by simp_all) (accepted rejected)

omit [DecidableEq α] in
theorem refusal_inside {middle more : Trace α} (first : ∀ other, .refused other ∉ before)
    (refused : ¬ ∀ other, .refused other ∉ middle)
    (same : middle ++ more = before ++ .tried origin y :: .refused rejected :: later) :
    ∃ inner, middle = before ++ .tried origin y :: .refused rejected :: inner ∧ later = inner ++ more := by
  rcases List.append_eq_append_iff.mp same with ⟨new, rfl, _⟩ | ⟨rest, rfl, others⟩
  · exact absurd (fun other member => first other (List.mem_append_left _ member)) refused
  · cases rest with
    | nil => exact absurd (by simpa using first) refused
    | cons one rest =>
        cases rest with
        | nil =>
            obtain ⟨rfl, _⟩ := List.cons.inj others
            exact absurd (by simpa using first) refused
        | cons two rest =>
            obtain ⟨rfl, rfl, rfl⟩ : Moment.tried origin y = one ∧ Moment.refused rejected = two ∧ later = rest ++ more := by
              simpa using others
            exact ⟨rest, rfl, rfl⟩

/-- Nothing more is tried after the first refusal if the searches around it have nothing left, and only
then in a search that is not cut off. -/
theorem Explores.refusal (explores : Explores rules set items trace returned after)
    (nodup : ∀ path, rules.valid path → path.Nodup) (entered : Entered trace set items)
    (accepted : ∀ other, .refused other ∉ trace) (first : ∀ other, .refused other ∉ before)
    (same : after = before ++ .tried origin y :: .refused (insert y origin) :: later) :
    (Quiet rules trace before origin set items → later = []) ∧
      (returned = true → visits later = [] → Quiet rules trace before origin set items) := by
  induction explores generalizing later with
  | done => exact absurd (by simp [same]) (accepted (insert y origin))
  | cut => exact absurd (by simp [same]) (accepted (insert y origin))
  | skip skipped tail ih =>
      obtain ⟨new, rfl⟩ := tail.before_refusal accepted same
      obtain ⟨stops, quiet⟩ := ih entered.tail accepted same
      exact ⟨fun all => stops all.tail, fun ended none => (quiet ended none).cons (.inl (skipped.append new))⟩
  | @raise set x rest trace tried =>
      have member : .refused (insert y origin) ∈ trace ++ [.tried set x] := by simp [same]
      exact absurd (by simpa using member) (accepted (insert y origin))
  | @refuse set x rest trace tried =>
      have whole : Explores rules set (x :: rest) trace true _ := .refuse tried
      obtain ⟨new, rfl⟩ := whole.before_refusal accepted same
      simp only [List.append_assoc] at same
      have ends := List.append_cancel_left same
      cases new with
      | nil =>
          obtain ⟨⟨rfl, rfl⟩, _, rfl⟩ : (set = origin ∧ x = y) ∧ insert x set = insert y origin ∧ later = [] := by
            simpa using ends
          exact ⟨fun _ => rfl, fun _ _ => ⟨fun other => absurd rfl other, fun recording member unknown =>
            absurd (by simpa using member) unknown⟩⟩
      | cons moment new => cases new <;> simp at ends
  | @fruitless set x rest trace returned after tried tail ih =>
      have stillAccepted : ∀ other, .refused other ∉ trace ++ [.tried set x] ++ [.fruitless (insert x set)] := by
        simpa using accepted
      obtain ⟨new, rfl⟩ := tail.before_refusal stillAccepted same
      obtain ⟨stops, quiet⟩ := ih entered.fruitless stillAccepted same
      refine ⟨fun all => stops (all.tail.mono (by simp)), fun ended none => ?_⟩
      exact ((quiet ended none).mono (by simp)).cons (.inr (by simp))
  | @raiseInside set x rest trace path after tried valid novel inside ih =>
      have stillAccepted :
          ∀ other, .refused other ∉ trace ++ [.tried set x] ++ [.recorded (insert x set) path] := by
        simpa using accepted
      obtain ⟨new, grown⟩ := inside.before_refusal stillAccepted same
      have stops := (ih (entered.inside tried (nodup path valid)) stillAccepted same).1
      exact ⟨fun all => stops (all.inside tried grown), fun impossible => by contradiction⟩
  | @found set x rest trace path middle returned after tried valid novel inside tail insideIH tailIH =>
      have stillAccepted :
          ∀ other, .refused other ∉ trace ++ [.tried set x] ++ [.recorded (insert x set) path] := by
        simpa using accepted
      have passed := entered.found nodup tried valid inside
      obtain ⟨inner, ends⟩ := inside.extends
      by_cases accepts : ∀ other, .refused other ∉ middle
      · -- The refusal comes in the search of the other elements.
        obtain ⟨new, rfl⟩ := tail.before_refusal accepts same
        obtain ⟨stops, quiet⟩ := tailIH passed accepts same
        have older : recordings trace ⊆ recordings middle := by simp [ends]
        exact ⟨fun all => stops (all.tail.mono older), fun ended none => (quiet ended none).behind inside accepts⟩
      · -- The refusal comes in the search of the path that was found.
        obtain ⟨more, rfl⟩ := tail.extends
        obtain ⟨between, split, rfl⟩ := refusal_inside first accepts same
        obtain ⟨new, grown⟩ := inside.before_refusal stillAccepted split
        obtain ⟨stops, quiet⟩ := insideIH (entered.inside tried (nodup path valid)) stillAccepted split
        refine ⟨fun all => ?_, fun ended none => ?_⟩
        · have other : set ≠ origin := by
            rw [split, grown] at inside
            exact entered.elsewhere nodup tried valid inside
          have skipped (z : α) (member : z ∈ rest) : Skipped rules middle set z := by
            rcases all.tail.here other z member with skipped | visited
            · rw [split]
              exact skipped.append _
            · exact absurd (by rw [split, visits_append]; exact List.mem_append_left _ visited) (passed.fresh z member)
          have nothing : more = [] := by simpa using tail.idle skipped
          rw [stops (all.inside tried grown), nothing, List.append_nil]
        · obtain ⟨noneInside, noneBehind⟩ := List.append_eq_nil_iff.mp ((visits_append _ _).symm.trans none)
          have calm := quiet rfl noneInside
          have nothing := stops calm
          subst nothing
          have nothingBehind := tail.adds_nothing noneBehind
          have skipped := tail.skips (by simp [nothingBehind]) ended
          rw [split] at skipped
          refine calm.found (List.forall_mem_cons.mpr ⟨.inr (by simp [grown]), fun z member => .inl ?_⟩)
          simpa [Skipped, Recorded] using skipped z member

end Refusal

def Moment.Refused (moment : Moment α) : Prop := ∃ set, moment = .refused set

def Moment.Tried (moment : Moment α) : Prop := ∃ origin x, moment = .tried origin x

omit [DecidableEq α] in
theorem Moment.visit_eq_none {moment : Moment α} : moment.visit = none ↔ ¬ moment.Tried := by
  cases moment <;> simp [Moment.Tried]

/-- In front of every refusal is its try. -/
def RefusedTries (trace : Trace α) : Prop :=
  Chronicle (fun before moment => ∀ rejected, moment = .refused rejected →
    ∃ earlier origin x, before = earlier ++ [.tried origin x] ∧ rejected = insert x origin) trace

theorem RefusedTries.snoc (known : RefusedTries trace) {moment : Moment α} (accepted : ¬ moment.Refused) :
    RefusedTries (trace ++ [moment]) :=
  (chronicle_snoc moment).mpr ⟨known, fun rejected refused => absurd ⟨rejected, refused⟩ accepted⟩

theorem Explores.refusedTries (explores : Explores rules set items trace returned after) (known : RefusedTries trace) :
    RefusedTries after := by
  have tried {trace : Trace α} (known : RefusedTries trace) (set : Finset α) (x : α) :
      RefusedTries (trace ++ [.tried set x]) := known.snoc (by simp [Moment.Refused])
  induction explores with
  | done => exact known
  | cut => exact known
  | skip _ _ ih => exact ih known
  | raise => exact tried known _ _
  | @refuse set x =>
      exact (chronicle_snoc _).mpr ⟨tried known set x, fun rejected same => ⟨_, set, x, rfl, by cases same; rfl⟩⟩
  | fruitless _ _ ih => exact ih ((tried known _ _).snoc (by simp [Moment.Refused]))
  | raiseInside _ _ _ _ ih => exact ih ((tried known _ _).snoc (by simp [Moment.Refused]))
  | found _ _ _ _ _ insideIH tailIH => exact tailIH (insideIH ((tried known _ _).snoc (by simp [Moment.Refused])))

section Root

/-- When the first try is refused, nothing is left of all recorded paths but the one whose element was tried. -/
def LeavesNothing (rules : Rules α) (trace : Trace α) : Prop :=
  ∀ before origin x after, trace = before ++ .tried origin x :: .refused (insert x origin) :: after →
    (∀ other, .refused other ∉ before) →
      ∀ recording ∈ recordings before, recording.1 ≠ origin → ∀ y ∈ recording.2, Finished rules before recording.1 y

/-- Nothing is tried after a refusal. -/
def EndsAtRefusal (trace : Trace α) : Prop := trace.Pairwise fun earlier later => earlier.Refused → ¬ later.Tried

theorem Explores.ends_at_refusal (explores : Explores rules ∅ path [.recorded ∅ path] returned after)
    (nodup : ∀ path, rules.valid path → path.Nodup) (valid : rules.valid path) :
    (LeavesNothing rules after → EndsAtRefusal after) ∧
      (returned = true → EndsAtRefusal after → LeavesNothing rules after) := by
  have refusal {before later origin y} := @Explores.refusal _ _ _ _ origin _ _ before _ _ y later explores nodup
    (.root (nodup path valid)) (by simp)
  have root {before later origin y} := @Explores.before_refusal _ _ _ _ origin _ _ before _ _ y (insert y origin) later
    explores (by simp)
  refine ⟨fun leaves => ?_, fun ended ends before origin x later same first => ?_⟩
  · refine pairwise_of_first fun before moment later same refused first => ?_
    obtain ⟨rejected, rfl⟩ := refused
    have accepted : ∀ other, .refused other ∉ before := fun other member => first _ member ⟨other, rfl⟩
    obtain ⟨earlier, origin, x, rfl, rfl⟩ :=
      explores.refusedTries (chronicle_singleton.mpr fun _ impossible => by contradiction) before _ later same rejected rfl
    rw [List.append_assoc] at same
    have earlierAccepted : ∀ other, .refused other ∉ earlier :=
      fun other member => accepted other (List.mem_append_left _ member)
    have left := leaves earlier origin x later same earlierAccepted
    obtain ⟨new, rfl⟩ := root same
    have quiet : Quiet rules [.recorded ∅ path] ([.recorded ∅ path] ++ new) origin ∅ path :=
      ⟨left (∅, path) (by simp), fun recording member _ => left recording member⟩
    rw [(refusal earlierAccepted same).1 quiet]
    simp
  · have nothing : visits later = [] := by
      rw [same] at ends
      have behind := (List.pairwise_cons.mp (List.pairwise_cons.mp (List.pairwise_append.mp ends).2.1).2).1
      exact List.filterMap_eq_nil_iff.mpr fun moment member =>
        Moment.visit_eq_none.mpr (behind moment member ⟨_, rfl⟩)
    have quiet := (refusal first same).2 ended nothing
    intro recording member other
    by_cases atRoot : recording ∈ recordings [Moment.recorded ∅ path]
    · obtain rfl : recording = (∅, path) := by simpa using atRoot
      exact quiet.here other
    · exact quiet.others recording member atRoot other

end Root

end ActiveBgp.Data.Exploration

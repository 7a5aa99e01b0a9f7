import ActiveBgp.Data.Digraph
import Mathlib.Data.Finset.Insert
import Mathlib.Data.Finset.Dedup

namespace ActiveBgp.Data.Exploration

/-! # Exploration by growing sets

A search tries sets of elements.  A try either brings nothing or records a path
under the set; every element of a path recorded under a set offers the set that
it is added to, and the search comes to the offers of a path as soon as the path
is recorded, innermost first.  Sets that have a recorded path are not tried
again.
-/

variable {α : Type*}

/-- Elements that are never added, sets that are never tried, and the paths that a
try may bring. -/
structure Rules (α : Type*) where
  fixed : α → Prop
  conflict : Finset α → Prop
  valid : List α → Prop

/-- What happens, in order: the set `insert x origin` is tried, and the try is
refused, brings nothing, or records a path. -/
inductive Moment (α : Type*) where
  | tried (origin : Finset α) (x : α)
  | refused (set : Finset α)
  | fruitless (set : Finset α)
  | recorded (set : Finset α) (path : List α)
deriving DecidableEq

def Moment.visit : Moment α → Option (Finset α × α)
  | .tried origin x => some (origin, x)
  | _ => none

def Moment.recording : Moment α → Option (Finset α × List α)
  | .recorded set path => some (set, path)
  | _ => none

/-- The set of a try that has come to an end. -/
def Moment.answer : Moment α → Option (Finset α)
  | .tried _ _ => none
  | .refused set => some set
  | .fruitless set => some set
  | .recorded set _ => some set

abbrev Trace (α : Type*) := List (Moment α)

def visits (trace : Trace α) : List (Finset α × α) := trace.filterMap Moment.visit

def recordings (trace : Trace α) : List (Finset α × List α) := trace.filterMap Moment.recording

def answers (trace : Trace α) : List (Finset α) := trace.filterMap Moment.answer

theorem filterMap_cons {β : Type*} (project : Moment α → Option β) (moment : Moment α) (rest : Trace α) :
    (moment :: rest).filterMap project = (project moment).toList ++ rest.filterMap project := by
  cases shown : project moment <;> simp [shown]

@[simp] theorem visit_tried (origin : Finset α) (x : α) : (Moment.tried origin x).visit = some (origin, x) := rfl

@[simp] theorem visit_refused (set : Finset α) : (Moment.refused set).visit = none := rfl

@[simp] theorem visit_fruitless (set : Finset α) : (Moment.fruitless set).visit = none := rfl

@[simp] theorem visit_recorded (set : Finset α) (path : List α) : (Moment.recorded set path).visit = none := rfl

@[simp] theorem recording_tried (origin : Finset α) (x : α) : (Moment.tried origin x).recording = none := rfl

@[simp] theorem recording_refused (set : Finset α) : (Moment.refused set).recording = none := rfl

@[simp] theorem recording_fruitless (set : Finset α) : (Moment.fruitless set).recording = none := rfl

@[simp] theorem recording_recorded (set : Finset α) (path : List α) :
    (Moment.recorded set path).recording = some (set, path) := rfl

@[simp] theorem answer_tried (origin : Finset α) (x : α) : (Moment.tried origin x).answer = none := rfl

@[simp] theorem visits_nil : visits ([] : Trace α) = [] := rfl

@[simp] theorem recordings_nil : recordings ([] : Trace α) = [] := rfl

@[simp] theorem answers_nil : answers ([] : Trace α) = [] := rfl

@[simp] theorem visits_cons (moment : Moment α) (rest : Trace α) :
    visits (moment :: rest) = moment.visit.toList ++ visits rest := filterMap_cons _ _ _

@[simp] theorem recordings_cons (moment : Moment α) (rest : Trace α) :
    recordings (moment :: rest) = moment.recording.toList ++ recordings rest := filterMap_cons _ _ _

@[simp] theorem answers_cons (moment : Moment α) (rest : Trace α) :
    answers (moment :: rest) = moment.answer.toList ++ answers rest := filterMap_cons _ _ _

@[simp] theorem answers_append (trace more : Trace α) : answers (trace ++ more) = answers trace ++ answers more :=
  List.filterMap_append

@[simp] theorem visits_append (trace more : Trace α) : visits (trace ++ more) = visits trace ++ visits more :=
  List.filterMap_append

@[simp] theorem recordings_append (trace more : Trace α) :
    recordings (trace ++ more) = recordings trace ++ recordings more := List.filterMap_append

def Recorded (trace : Trace α) (set : Finset α) : Prop := set ∈ (recordings trace).map Prod.fst

theorem recorded_of_mem {trace : Trace α} {set : Finset α} {path : List α}
    (member : (set, path) ∈ recordings trace) : Recorded trace set :=
  List.mem_map.mpr ⟨_, member, rfl⟩

theorem Recorded.append {trace : Trace α} {set : Finset α} (recorded : Recorded trace set) (more : Trace α) :
    Recorded (trace ++ more) set := by
  unfold Recorded at *
  rw [recordings_append, List.map_append]
  exact List.mem_append_left _ recorded

variable [DecidableEq α]

def tries (trace : Trace α) : List (Finset α) := (visits trace).map fun visit => insert visit.2 visit.1

def Skipped (rules : Rules α) (trace : Trace α) (set : Finset α) (x : α) : Prop :=
  rules.fixed x ∨ rules.conflict (insert x set) ∨ Recorded trace (insert x set)

/-- `Explores rules set items trace returned after`: the search of the elements
`items` of the path recorded under `set` turns `trace` into `after`.  It may be
cut off at any point; a refused try ends it early. -/
inductive Explores (rules : Rules α) : Finset α → List α → Trace α → Bool → Trace α → Prop where
  | done {set trace} : Explores rules set [] trace true trace
  | cut {set items trace} : Explores rules set items trace false trace
  | skip {set x rest trace returned after} (skipped : Skipped rules trace set x)
      (tail : Explores rules set rest trace returned after) :
      Explores rules set (x :: rest) trace returned after
  | raise {set x rest trace} (tried : ¬ Skipped rules trace set x) :
      Explores rules set (x :: rest) trace false (trace ++ [.tried set x])
  | refuse {set x rest trace} (tried : ¬ Skipped rules trace set x) :
      Explores rules set (x :: rest) trace true (trace ++ [.tried set x] ++ [.refused (insert x set)])
  | fruitless {set x rest trace returned after} (tried : ¬ Skipped rules trace set x)
      (tail : Explores rules set rest (trace ++ [.tried set x] ++ [.fruitless (insert x set)]) returned after) :
      Explores rules set (x :: rest) trace returned after
  | raiseInside {set x rest trace path after} (tried : ¬ Skipped rules trace set x) (valid : rules.valid path)
      (novel : Novel (recordings trace) (insert x set, path))
      (inside : Explores rules (insert x set) path
        (trace ++ [.tried set x] ++ [.recorded (insert x set) path]) false after) :
      Explores rules set (x :: rest) trace false after
  | found {set x rest trace path middle returned after} (tried : ¬ Skipped rules trace set x)
      (valid : rules.valid path) (novel : Novel (recordings trace) (insert x set, path))
      (inside : Explores rules (insert x set) path
        (trace ++ [.tried set x] ++ [.recorded (insert x set) path]) true middle)
      (tail : Explores rules set rest middle returned after) :
      Explores rules set (x :: rest) trace returned after

@[simp] theorem tries_append (trace more : Trace α) : tries (trace ++ more) = tries trace ++ tries more := by
  simp [tries]

@[simp] theorem tries_nil : tries ([] : Trace α) = [] := rfl

@[simp] theorem tries_cons (moment : Moment α) (rest : Trace α) :
    tries (moment :: rest) = (moment.visit.map fun visit => insert visit.2 visit.1).toList ++ tries rest := by
  rw [tries, visits_cons, List.map_append]
  cases moment.visit <;> rfl

variable {rules : Rules α} {set : Finset α} {items : List α} {trace after : Trace α} {returned : Bool}

theorem Explores.extends (explores : Explores rules set items trace returned after) :
    ∃ more, after = trace ++ more := by
  induction explores with
  | done => exact ⟨[], by simp⟩
  | cut => exact ⟨[], by simp⟩
  | skip _ _ ih => exact ih
  | raise _ => exact ⟨_, rfl⟩
  | refuse _ => exact ⟨_, by rw [List.append_assoc]⟩
  | fruitless _ _ ih =>
      obtain ⟨more, rfl⟩ := ih
      exact ⟨_, by rw [List.append_assoc, List.append_assoc]⟩
  | raiseInside _ _ _ _ ih =>
      obtain ⟨more, rfl⟩ := ih
      exact ⟨_, by rw [List.append_assoc, List.append_assoc]⟩
  | found _ _ _ _ _ insideIH tailIH =>
      obtain ⟨inner, rfl⟩ := insideIH
      obtain ⟨more, rfl⟩ := tailIH
      exact ⟨_, by simp only [List.append_assoc]; rfl⟩

/-- The elements of the set in an order in which each one lies on a path that was
recorded under the elements before it. -/
def Derived (rules : Rules α) (recorded : List (Finset α × List α)) (set : Finset α) : Prop :=
  ∃ order : List α, order.Nodup ∧ order.toFinset = set ∧ (∀ x ∈ order, ¬ rules.fixed x) ∧
    Chronicle (fun earlier x => ∃ path, (earlier.toFinset, path) ∈ recorded ∧ x ∈ path) order

/-- Every try but the first has come to an end; the root was not tried. -/
def Settled (trace : Trace α) : Prop := answers trace = ∅ :: tries trace

/-- What is known when `insert x origin` is tried. -/
structure Justified (rules : Rules α) (before : Trace α) (origin : Finset α) (x : α) : Prop where
  settled : Settled before
  unrecorded : ¬ Recorded before (insert x origin)
  allowed : ¬ rules.conflict (insert x origin)
  offered : ∃ path, (origin, path) ∈ recordings before ∧ x ∈ path
  new : x ∉ origin
  derived : Derived rules (recordings before) (insert x origin)

structure Sound (rules : Rules α) (trace : Trace α) : Prop where
  distinct : ((recordings trace).map Prod.fst).Nodup
  valid : ∀ recording ∈ recordings trace, rules.valid recording.2
  novel : Chronicle Novel (recordings trace)
  justified : Chronicle (fun before moment => ∀ origin x, moment = .tried origin x →
    Justified rules before origin x) trace

/-- The search of `items` belongs to a path that was recorded under `set`. -/
structure Context (rules : Rules α) (trace : Trace α) (set : Finset α) (items : List α) : Prop where
  offered : ∃ path, (set, path) ∈ recordings trace ∧ ∀ x ∈ items, x ∈ path
  derived : Derived rules (recordings trace) set

theorem Derived.mono {recorded more : List (Finset α × List α)} (derived : Derived rules recorded set)
    (subset : recorded ⊆ more) : Derived rules more set := by
  obtain ⟨order, nodup, same, free, chain⟩ := derived
  exact ⟨order, nodup, same, free, chain.imp fun earlier x ⟨path, member, inside⟩ => ⟨path, subset member, inside⟩⟩

theorem Derived.add {recorded : List (Finset α × List α)} (derived : Derived rules recorded set) {x : α}
    (new : x ∉ set) (free : ¬ rules.fixed x) (offered : ∃ path, (set, path) ∈ recorded ∧ x ∈ path) :
    Derived rules recorded (insert x set) := by
  obtain ⟨order, nodup, rfl, others, chain⟩ := derived
  refine ⟨order ++ [x], ?_, ?_, ?_, (chronicle_snoc x).mpr ⟨chain, offered⟩⟩
  · have outside : x ∉ order := by simpa using new
    exact List.nodup_append.mpr ⟨nodup, List.nodup_singleton x, fun member inside other single same =>
      outside (by rw [List.mem_singleton.mp single] at same; exact same ▸ inside)⟩
  · ext y
    simp
  · intro y member
    rcases List.mem_append.mp member with old | last
    · exact others y old
    · rw [List.mem_singleton.mp last]
      exact free

namespace Context

variable {x : α} {rest path : List α}

theorem tail (context : Context rules trace set (x :: rest)) : Context rules trace set rest := by
  obtain ⟨path, member, inside⟩ := context.offered
  exact ⟨⟨path, member, fun y later => inside y (by simp [later])⟩, context.derived⟩

theorem append (context : Context rules trace set items) (more : Trace α) :
    Context rules (trace ++ more) set items := by
  have subset : recordings trace ⊆ recordings (trace ++ more) := by simp
  obtain ⟨path, member, inside⟩ := context.offered
  exact ⟨⟨path, subset member, inside⟩, context.derived.mono subset⟩

theorem justified (context : Context rules trace set (x :: rest)) (settled : Settled trace)
    (tried : ¬ Skipped rules trace set x) : Justified rules trace set x := by
  obtain ⟨free, allowed, unrecorded⟩ :
      ¬ rules.fixed x ∧ ¬ rules.conflict (insert x set) ∧ ¬ Recorded trace (insert x set) := by
    simpa [Skipped, not_or] using tried
  obtain ⟨path, member, inside⟩ := context.offered
  have offered : ∃ path, (set, path) ∈ recordings trace ∧ x ∈ path := ⟨path, member, inside x (by simp)⟩
  -- An element of the set itself offers the set, which has a recorded path.
  have new : x ∉ set := fun old => unrecorded (by
    rw [Finset.insert_eq_self.mpr old]
    exact recorded_of_mem member)
  exact ⟨settled, unrecorded, allowed, offered, new, context.derived.add new free offered⟩

theorem inside (context : Context rules trace set (x :: rest)) (settled : Settled trace)
    (tried : ¬ Skipped rules trace set x) :
    Context rules (trace ++ [.tried set x] ++ [.recorded (insert x set) path]) (insert x set) path := by
  have derived := (context.justified settled tried).derived
  refine ⟨⟨path, by simp, fun _ member => member⟩, derived.mono ?_⟩
  intro recording member
  simp [member]

end Context

namespace Sound

variable {x : α} {path : List α}

theorem tried (sound : Sound rules trace) (justified : Justified rules trace set x) :
    Sound rules (trace ++ [.tried set x]) where
  distinct := by simpa using sound.distinct
  valid := by simpa using sound.valid
  novel := by simpa using sound.novel
  justified := (chronicle_snoc _).mpr ⟨sound.justified, fun _ _ same => by cases same; exact justified⟩

theorem noted (sound : Sound rules trace) {moment : Moment α} (visit : moment.visit = none)
    (recording : moment.recording = none) : Sound rules (trace ++ [moment]) where
  distinct := by simpa [recording] using sound.distinct
  valid := by simpa [recording] using sound.valid
  novel := by simpa [recording] using sound.novel
  justified := (chronicle_snoc _).mpr ⟨sound.justified, fun _ _ same => by subst same; simp at visit⟩

theorem recorded (sound : Sound rules trace) (unrecorded : ¬ Recorded trace set) (valid : rules.valid path)
    (novel : Novel (recordings trace) (set, path)) : Sound rules (trace ++ [.recorded set path]) where
  distinct := by
    simp only [recordings_append, recordings_cons, recordings_nil, recording_recorded, Option.toList_some,
      List.append_nil, List.map_append, List.map_cons, List.map_nil]
    exact List.nodup_append.mpr ⟨sound.distinct, List.nodup_singleton _, fun other member last single same =>
      unrecorded (by rw [List.mem_singleton.mp single] at same; exact same ▸ member)⟩
  valid := by
    intro recording member
    simp only [recordings_append, recordings_cons, recordings_nil, recording_recorded, Option.toList_some,
      List.append_nil, List.mem_append, List.mem_singleton] at member
    rcases member with old | rfl
    · exact sound.valid recording old
    · exact valid
  novel := by simpa using (chronicle_snoc _).mpr ⟨sound.novel, novel⟩
  justified := (chronicle_snoc _).mpr ⟨sound.justified, fun _ _ same => by cases same⟩

end Sound

theorem Settled.answered (settled : Settled trace) {origin : Finset α} {x : α} {moment : Moment α}
    (visit : moment.visit = none) (answer : moment.answer = some (insert x origin)) :
    Settled (trace ++ [.tried origin x] ++ [moment]) := by
  unfold Settled at *
  simp [settled, visit, answer]

theorem Explores.sound (explores : Explores rules set items trace returned after) (sound : Sound rules trace)
    (settled : Settled trace) (context : Context rules trace set items) :
    Sound rules after ∧ (returned = true → Settled after) := by
  induction explores with
  | done => exact ⟨sound, fun _ => settled⟩
  | cut => exact ⟨sound, fun impossible => by contradiction⟩
  | skip _ _ ih => exact ih sound settled context.tail
  | raise tried => exact ⟨sound.tried (context.justified settled tried), fun impossible => by contradiction⟩
  | refuse tried =>
      exact ⟨(sound.tried (context.justified settled tried)).noted rfl rfl, fun _ => settled.answered rfl rfl⟩
  | fruitless tried _ ih =>
      refine ih ((sound.tried (context.justified settled tried)).noted rfl rfl) (settled.answered rfl rfl) ?_
      rw [List.append_assoc]
      exact context.tail.append _
  | raiseInside tried valid novel _ ih =>
      have justified := context.justified settled tried
      exact ih ((sound.tried justified).recorded (by simpa [Recorded] using justified.unrecorded) valid
        (by simpa using novel)) (settled.answered rfl rfl) (context.inside settled tried)
  | found tried valid novel inside _ insideIH tailIH =>
      have justified := context.justified settled tried
      have middle := insideIH ((sound.tried justified).recorded (by simpa [Recorded] using justified.unrecorded)
        valid (by simpa using novel)) (settled.answered rfl rfl) (context.inside settled tried)
      obtain ⟨more, rfl⟩ := inside.extends
      refine tailIH middle.1 (middle.2 rfl) ?_
      rw [List.append_assoc, List.append_assoc]
      exact context.tail.append _

section Root

variable {path : List α}

theorem Sound.root (valid : rules.valid path) (novel : Novel [] ((∅ : Finset α), path)) :
    Sound rules [.recorded ∅ path] where
  distinct := List.nodup_singleton _
  valid recording member := by
    rw [List.mem_singleton.mp member]
    exact valid
  novel := chronicle_singleton.mpr novel
  justified := chronicle_singleton.mpr fun _ _ same => by cases same

theorem Context.root : Context rules [.recorded ∅ path] ∅ path where
  offered := ⟨path, by simp, fun _ member => member⟩
  derived := ⟨[], List.nodup_nil, rfl, by simp, chronicle_nil⟩

theorem Explores.sound_root (explores : Explores rules ∅ path [.recorded ∅ path] returned after)
    (valid : rules.valid path) (novel : Novel [] ((∅ : Finset α), path)) :
    Sound rules after ∧ (returned = true → Settled after) :=
  explores.sound (.root valid novel) rfl .root

end Root

end ActiveBgp.Data.Exploration

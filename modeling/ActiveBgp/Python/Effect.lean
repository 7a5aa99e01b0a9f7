import Mathlib.Data.List.Forall2
import ActiveBgp.Python.Text

namespace ActiveBgp.Python

/-! # Effects that survive exceptions

A Python function that changes state is an `EStateM` computation: when it
raises, the changes made before the exception stay in force.  An invariant has
therefore to hold of the final state of either outcome.
-/

/-- The exception classes that occur.  A `ValueError` carries the text given to
it where the program itself raises it. -/
inductive PyError where
  | valueError (message : Text)
  | typeError
  | indexError
  | keyError
  | attributeError
  | recursionError
  | calledProcessError
  | systemExit
deriving DecidableEq, Repr

/-- `str(e)`; classes raised by the interpreter are known by their names only. -/
def PyError.message : PyError → Text
  | .valueError message => message
  | .typeError => "TypeError".toList
  | .indexError => "IndexError".toList
  | .keyError => "KeyError".toList
  | .attributeError => "AttributeError".toList
  | .recursionError => "RecursionError".toList
  | .calledProcessError => "CalledProcessError".toList
  | .systemExit => "1".toList

def orRaise (error : PyError) {α : Type} : Option α → Except PyError α
  | some value => .ok value
  | none => .error error

abbrev Effect (σ α : Type) := EStateM PyError σ α

variable {σ τ α β : Type}

/-- The state a computation leaves behind, whether it returned or raised. -/
def final : EStateM.Result PyError σ α → σ
  | .ok _ state => state
  | .error _ state => state

@[simp] theorem final_ok (value : α) (state : σ) :
    final (.ok value state : EStateM.Result PyError σ α) = state := rfl

@[simp] theorem final_error (error : PyError) (state : σ) :
    final (.error error state : EStateM.Result PyError σ α) = state := rfl

def returned : EStateM.Result PyError σ α → Bool
  | .ok _ _ => true
  | .error _ _ => false

@[simp] theorem returned_ok (value : α) (state : σ) :
    returned (.ok value state : EStateM.Result PyError σ α) = true := rfl

@[simp] theorem returned_error (error : PyError) (state : σ) :
    returned (.error error state : EStateM.Result PyError σ α) = false := rfl

variable {ε : Type}

theorem except_bind_ok (value : α) (next : α → Except ε β) : ((.ok value : Except ε α) >>= next) = next value := rfl

theorem except_bind_error (error : ε) (next : α → Except ε β) :
    ((.error error : Except ε α) >>= next) = .error error := rfl

theorem except_bind_eq_ok {computed : Except ε α} {next : α → Except ε β} {result : β} :
    (computed >>= next) = .ok result ↔ ∃ value, computed = .ok value ∧ next value = .ok result := by
  cases computed with
  | error error => simp [except_bind_error]
  | ok value => simp [except_bind_ok]

theorem except_map_eq_ok {computed : Except PyError α} {change : α → β} {result : β} :
    computed.map change = .ok result ↔ ∃ value, computed = .ok value ∧ change value = result := by
  cases computed <;> simp [Except.map]

theorem mapM_eq_ok {convert : α → Except PyError β} {items : List α} {values : List β} :
    items.mapM convert = .ok values ↔ List.Forall₂ (fun item value => convert item = .ok value) items values := by
  induction items generalizing values with
  | nil =>
      rw [List.forall₂_nil_left_iff]
      exact ⟨fun done => (Except.ok.inj done).symm, fun same => same ▸ rfl⟩
  | cons item rest ih =>
      rw [List.mapM_cons, List.forall₂_cons_left_iff]
      constructor
      · intro done
        obtain ⟨first, now, done⟩ := except_bind_eq_ok.mp done
        obtain ⟨others, later, done⟩ := except_bind_eq_ok.mp done
        exact ⟨first, others, now, ih.mp later, (Except.ok.inj done).symm⟩
      · rintro ⟨first, others, now, later, rfl⟩
        rw [now, except_bind_ok, ih.mpr later]
        rfl

theorem mapM_ok_iff {convert : α → Except PyError β} {items : List α} :
    (∃ values, items.mapM convert = .ok values) ↔ ∀ item ∈ items, ∃ value, convert item = .ok value := by
  simp only [mapM_eq_ok]
  induction items with
  | nil => exact iff_of_true ⟨[], .nil⟩ (by simp)
  | cons item rest ih =>
      rw [List.forall_mem_cons, ← ih]
      constructor
      · rintro ⟨values, related⟩
        cases related with
        | cons now later => exact ⟨⟨_, now⟩, _, later⟩
      · rintro ⟨⟨value, now⟩, values, later⟩
        exact ⟨value :: values, .cons now later⟩

theorem map_of_mapM {convert : α → Except PyError β} {back : β → α} {items : List α}
    (inverse : ∀ item ∈ items, ∀ value, convert item = .ok value → back value = item) {values : List β}
    (done : items.mapM convert = .ok values) : values.map back = items := by
  have related := mapM_eq_ok.mp done
  clear done
  induction related with
  | nil => rfl
  | cons now _ ih =>
      obtain ⟨first, others⟩ := List.forall_mem_cons.mp inverse
      rw [List.map_cons, first _ now, ih others]

theorem exists_of_mem_mapM {convert : α → Except PyError β} {items : List α} {values : List β}
    (done : items.mapM convert = .ok values) {value : β} (member : value ∈ values) :
    ∃ item ∈ items, convert item = .ok value := by
  have related := mapM_eq_ok.mp done
  induction related with
  | nil => contradiction
  | cons now later ih =>
      rcases List.mem_cons.mp member with rfl | inside
      · exact ⟨_, List.mem_cons_self, now⟩
      · obtain ⟨item, among, converted⟩ := ih (mapM_eq_ok.mpr later) inside
        exact ⟨item, List.mem_cons_of_mem _ among, converted⟩

/-- A loop over rows that are parsed one by one is a loop over what they say. -/
theorem foldlM_of_mapM {parse : α → Except PyError β} {step : σ → β → Except PyError σ} {rows : List α} {items : List β}
    (parsed : rows.mapM parse = .ok items) (state : σ) :
    rows.foldlM (fun state row => do step state (← parse row)) state = items.foldlM step state := by
  have related := mapM_eq_ok.mp parsed
  clear parsed
  induction related generalizing state with
  | nil => rfl
  | cons now _ ih =>
      rw [List.foldlM_cons, List.foldlM_cons, now, except_bind_ok]
      exact bind_congr ih

theorem orRaise_eq_ok {error : PyError} {found : Option α} {value : α} :
    orRaise error found = .ok value ↔ found = some value := by
  cases found <;> simp [orRaise]

theorem except_throw (error : PyError) : (throw error : Except PyError α) = .error error := rfl

namespace Effect

def ofExcept (computed : Except PyError α) : Effect σ α := fun state =>
  match computed with
  | .ok value => .ok value state
  | .error error => .error error state

def within (read : σ → τ) (write : τ → σ → σ) (effect : Effect τ α) : Effect σ α := fun state =>
  match effect (read state) with
  | .ok value part => .ok value (write part state)
  | .error error part => .error error (write part state)

theorem bind_eq (first : Effect σ α) (next : α → Effect σ β) (state : σ) :
    (first >>= next) state = match first state with
      | .ok value after => next value after
      | .error error after => .error error after := by
  change EStateM.bind first next state = _
  unfold EStateM.bind
  cases first state <;> rfl

theorem map_eq (change : α → β) (effect : Effect σ α) (state : σ) :
    (change <$> effect) state = match effect state with
      | .ok value after => .ok (change value) after
      | .error error after => .error error after := by
  rw [map_eq_pure_bind]
  exact bind_eq effect _ state

@[simp] theorem pure_apply (value : α) (state : σ) : (pure value : Effect σ α) state = .ok value state := rfl

@[simp] theorem throw_apply (error : PyError) (state : σ) :
    (throw error : Effect σ α) state = .error error state := rfl

@[simp] theorem get_apply (state : σ) : (get : Effect σ σ) state = .ok state state := rfl

@[simp] theorem set_apply (after state : σ) : (set after : Effect σ PUnit) state = .ok ⟨⟩ after := rfl

@[simp] theorem modify_apply (change : σ → σ) (state : σ) :
    (modify change : Effect σ PUnit) state = .ok ⟨⟩ (change state) := rfl

@[simp] theorem ofExcept_ok (value : α) (state : σ) :
    (ofExcept (.ok value) : Effect σ α) state = .ok value state := rfl

@[simp] theorem ofExcept_error (error : PyError) (state : σ) :
    (ofExcept (.error error) : Effect σ α) state = .error error state := rfl

@[simp] theorem final_within (read : σ → τ) (write : τ → σ → σ) (effect : Effect τ α) (state : σ) :
    final (within read write effect state) = write (final (effect (read state))) state := by
  unfold within
  cases effect (read state) <;> rfl

/-- `try`: the caller gets the exception as a value, and the changes stay. -/
def attempt (effect : Effect σ α) : Effect σ (Except PyError α) := fun state =>
  match effect state with
  | .ok value after => .ok (.ok value) after
  | .error error after => .ok (.error error) after

theorem attempt_ok {effect : Effect σ α} {state after : σ} {value : α} (done : effect state = .ok value after) :
    attempt effect state = .ok (.ok value) after := by
  simp [attempt, done]

theorem attempt_error {effect : Effect σ α} {state after : σ} {error : PyError}
    (raised : effect state = .error error after) : attempt effect state = .ok (.error error) after := by
  simp [attempt, raised]

@[simp] theorem final_attempt (effect : Effect σ α) (state : σ) :
    final (attempt effect state) = final (effect state) := by
  unfold attempt
  cases effect state <;> rfl

/-- If the effect returns, `needed` holds and the change is made. -/
def Performs (effect : Effect σ PUnit) (needed : Prop) (change : σ → σ) : Prop :=
  ∀ ⦃state after⦄, effect state = .ok ⟨⟩ after → needed ∧ after = change state

section Performs

variable {effect next : Effect σ PUnit} {needed also : Prop} {change later : σ → σ}

theorem Performs.bind (first : Performs effect needed change) (second : Performs next also later) :
    Performs (effect >>= fun _ => next) (needed ∧ also) (later ∘ change) := by
  intro state after done
  rw [bind_eq] at done
  cases now : effect state with
  | error error between => rw [now] at done; cases done
  | ok value between =>
      rw [now] at done
      obtain ⟨holds, rfl⟩ := first now
      obtain ⟨more, rfl⟩ := second done
      exact ⟨⟨holds, more⟩, rfl⟩

theorem Performs.forM {body : α → Effect σ PUnit} {needed : α → Prop} {change : α → σ → σ}
    (each : ∀ item, Performs (body item) (needed item) (change item)) (items : List α) :
    Performs (items.forM body) (∀ item ∈ items, needed item) fun state => items.foldl (fun state item => change item state) state := by
  induction items with
  | nil =>
      intro state after done
      exact ⟨by simp, (EStateM.Result.ok.inj done).2.symm⟩
  | cons item rest ih =>
      intro state after done
      obtain ⟨holds, same⟩ := (each item).bind ih done
      exact ⟨List.forall_mem_cons.mpr holds, same⟩

end Performs

theorem returned_bind {effect next : Effect σ PUnit} (first : ∀ state, returned (effect state) = true)
    (second : ∀ state, returned (next state) = true) (state : σ) : returned ((effect >>= fun _ => next) state) = true := by
  rw [bind_eq]
  cases now : effect state with
  | error error after => exact absurd (first state) (by simp [now])
  | ok value after => exact second after

theorem returned_forM {body : α → Effect σ PUnit} {items : List α}
    (each : ∀ item ∈ items, ∀ state, returned (body item state) = true) :
    ∀ state, returned (items.forM body state) = true := by
  induction items with
  | nil => exact fun _ => rfl
  | cons item rest ih =>
      obtain ⟨first, others⟩ := List.forall_mem_cons.mp each
      exact returned_bind first (ih others)

end Effect

end ActiveBgp.Python

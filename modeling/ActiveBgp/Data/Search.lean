import ActiveBgp.Data.Exploration

namespace ActiveBgp.Data.Exploration

/-! # Recursive searches

A program that explores by growing sets loops over the elements of a path and
calls itself for every path that a round of the loop brings.  What a round may do
decides what the search does, and a rank that falls from call to call bounds the
depth at which a limit on nested calls is noticed.
-/

/-- How the loop goes on after a round. -/
inductive Turn (α : Type) where
  | quit
  | moveOn
  | descend (path : List α)

section Programs

variable {α ε σ β : Type} [DecidableEq α]

/-- The loop over the elements of a path; `recurse` is the nested call. -/
def searchLoop (turn : Finset α → α → EStateM ε σ (Turn α)) (recurse : List α → Finset α → EStateM ε σ β)
    (set : Finset α) : List α → EStateM ε σ Unit
  | [] => return ()
  | x :: rest => do
      match ← turn set x with
      | .quit => return ()
      | .moveOn => searchLoop turn recurse set rest
      | .descend path =>
          let _ ← recurse path (insert x set)
          searchLoop turn recurse set rest

/-- Calls nested deeper than the limit are cut off. -/
def unroll (body : (List α → Finset α → EStateM ε σ β) → List α → Finset α → EStateM ε σ β) (cutoff : ε) :
    Nat → List α → Finset α → EStateM ε σ β
  | 0 => fun _ _ => throw cutoff
  | limit + 1 => body (unroll body cutoff limit)

/-- The path is measured first; that may also bring the result at once. -/
def searchFrom (opening : EStateM ε σ (Except β (List α))) (turn : Finset α → α → EStateM ε σ (Turn α))
    (recurse : List α → Finset α → EStateM ε σ β) (set : Finset α) (result : β) : EStateM ε σ β := do
  match ← opening with
  | .error early => return early
  | .ok path =>
      searchLoop turn recurse set path
      return result

end Programs

section Specifications

variable {α ε σ β : Type} [DecidableEq α]

/-- Rules for the program, the trace of a state, and an invariant of the states. -/
structure Setting (α σ : Type) where
  rules : Rules α
  view : σ → Trace α
  inv : σ → Prop

variable (setting : Setting α σ)

/-- What a round for the element `x` of the path of `set` may do. -/
def Setting.Turns (set : Finset α) (x : α) (before : Trace α) : EStateM.Result ε σ (Turn α) → Prop
  | .error _ after => setting.inv after ∧ ¬ Skipped setting.rules before set x ∧
      setting.view after = before ++ [.tried set x]
  | .ok .quit after => setting.inv after ∧ ¬ Skipped setting.rules before set x ∧
      setting.view after = before ++ [.tried set x] ++ [.refused (insert x set)]
  | .ok .moveOn after => setting.inv after ∧
      (Skipped setting.rules before set x ∧ setting.view after = before ∨
        ¬ Skipped setting.rules before set x ∧
          setting.view after = before ++ [.tried set x] ++ [.fruitless (insert x set)])
  | .ok (.descend path) after => setting.inv after ∧ ¬ Skipped setting.rules before set x ∧
      setting.view after = before ++ [.tried set x] ++ [.recorded (insert x set) path] ∧
        setting.rules.valid path ∧ Novel (recordings before) (insert x set, path)

def Setting.Follows (turn : Finset α → α → EStateM ε σ (Turn α)) : Prop :=
  ∀ set x state, setting.inv state → Recorded (setting.view state) set →
    setting.Turns set x (setting.view state) (turn set x state)

/-- The search of `items` is an exploration and keeps the invariant. -/
def Setting.Searches (set : Finset α) (items : List α) (before : Trace α) : EStateM.Result ε σ β → Prop
  | .ok _ after => setting.inv after ∧ Explores setting.rules set items before true (setting.view after)
  | .error _ after => setting.inv after ∧ Explores setting.rules set items before false (setting.view after)

def Setting.Nested (recurse : List α → Finset α → EStateM ε σ β) : Prop :=
  ∀ path set state, setting.rules.valid path → setting.inv state → Recorded (setting.view state) set →
    setting.Searches set path (setting.view state) (recurse path set state)

/-- The measurement of a first path records it, or it brings no path. -/
def Setting.Opens (set : Finset α) (before : Trace α) : EStateM.Result ε σ (Except β (List α)) → Prop
  | .error _ after => setting.inv after ∧ setting.view after = before
  | .ok (.error _) after => setting.inv after ∧ setting.view after = before
  | .ok (.ok path) after => setting.inv after ∧ setting.view after = before ++ [.recorded set path] ∧
      setting.rules.valid path ∧ Novel (recordings before) (set, path)

/-- Nothing is recorded, or what is recorded first is explored. -/
def Setting.Started (set : Finset α) (before : Trace α) (returned : Bool) (after : σ) : Prop :=
  setting.inv after ∧ (setting.view after = before ∨ ∃ path, setting.rules.valid path ∧
    Novel (recordings before) (set, path) ∧
      Explores setting.rules set path (before ++ [.recorded set path]) returned (setting.view after))

def Setting.Starts (set : Finset α) (before : Trace α) : EStateM.Result ε σ β → Prop
  | .ok _ after => setting.Started set before true after
  | .error _ after => setting.Started set before false after

/-- For a valid path, the body is the loop over it. -/
def Setting.Loops (turn : Finset α → α → EStateM ε σ (Turn α))
    (body : (List α → Finset α → EStateM ε σ β) → List α → Finset α → EStateM ε σ β) (result : β) : Prop :=
  ∀ recurse path set, setting.rules.valid path →
    body recurse path set = (do searchLoop turn recurse set path; return result)

/-- The same program with a further invariant. -/
def Setting.keeping (extra : σ → Prop) : Setting α σ :=
  { setting with inv := fun state => setting.inv state ∧ extra state }

def Outcome (property : σ → Prop) : EStateM.Result ε σ β → Prop
  | .ok _ after => property after
  | .error _ after => property after

/-- The rank falls from a call to the calls nested in it. -/
structure Setting.Ranked (turn : Finset α → α → EStateM ε σ (Turn α)) (good : Finset α → List α → Prop)
    (rank : Finset α → Nat) : Prop where
  tail : ∀ set x rest, good set (x :: rest) → good set rest
  descend : ∀ set x rest state path after, setting.inv state → Recorded (setting.view state) set →
    good set (x :: rest) → turn set x state = .ok (.descend path) after →
      good (insert x set) path ∧ rank (insert x set) < rank set

end Specifications

section Rules

variable {α ε σ β : Type} [DecidableEq α] {setting : Setting α σ} {turn : Finset α → α → EStateM ε σ (Turn α)}
  {recurse other : List α → Finset α → EStateM ε σ β} {set : Finset α} {items path : List α} {state : σ}
  {before middle : Trace α}

theorem bind_result (first : EStateM ε σ β) {γ : Type} (next : β → EStateM ε σ γ) (state : σ) :
    (first >>= next) state = match first state with
      | .ok value after => next value after
      | .error error after => .error error after := by
  change EStateM.bind first next state = _
  unfold EStateM.bind
  cases first state <;> rfl

theorem Setting.Searches.imp {rest : List α} {result : EStateM.Result ε σ β}
    (searches : setting.Searches set rest middle result)
    (implies : ∀ {returned last}, Explores setting.rules set rest middle returned last →
      Explores setting.rules set items before returned last) : setting.Searches set items before result := by
  cases result with
  | ok value after => exact ⟨searches.1, implies searches.2⟩
  | error error after => exact ⟨searches.1, implies searches.2⟩

/-- An element that is not skipped under a recorded set is not one of its own. -/
theorem not_mem_of_tried {rules : Rules α} {x : α} (recorded : Recorded before set)
    (tried : ¬ Skipped rules before set x) : x ∉ set := fun inside => tried (.inr (.inr (by
  rwa [Finset.insert_eq_self.mpr inside])))

theorem Recorded.extends {returned : Bool} {after : Trace α} {rules : Rules α} (recorded : Recorded before set)
    {other : Finset α} (explores : Explores rules other items before returned after) : Recorded after set := by
  obtain ⟨more, rfl⟩ := explores.extends
  exact recorded.append more

theorem Setting.Follows.keep (follows : setting.Follows turn) {extra : σ → Prop}
    (kept : ∀ set x state, setting.inv state → Recorded (setting.view state) set → extra state →
      Outcome extra (turn set x state)) : (setting.keeping extra).Follows turn := by
  intro set x state both recorded
  have turns := follows set x state both.1 recorded
  have still := kept set x state both.1 recorded both.2
  cases done : turn set x state with
  | error error after =>
      rw [done] at turns still
      exact ⟨⟨turns.1, still⟩, turns.2⟩
  | ok outcome after =>
      rw [done] at turns still
      cases outcome <;> exact ⟨⟨turns.1, still⟩, turns.2⟩

/-- The loop is an exploration if its rounds follow the rules and the nested calls are explorations. -/
theorem Setting.Follows.loop (follows : setting.Follows turn) (nested : setting.Nested recurse)
    (invariant : setting.inv state) (recorded : Recorded (setting.view state) set) (items : List α) :
    setting.Searches set items (setting.view state) (searchLoop turn recurse set items state) := by
  induction items generalizing state with
  | nil => exact ⟨invariant, .done⟩
  | cons x rest ih =>
      have turns := follows set x state invariant recorded
      rw [searchLoop, bind_result]
      cases done : turn set x state with
      | error error after =>
          rw [done] at turns
          obtain ⟨now, tried, same⟩ := turns
          exact ⟨now, same ▸ .raise tried⟩
      | ok outcome after =>
          rw [done] at turns
          cases outcome with
          | quit =>
              obtain ⟨now, tried, same⟩ := turns
              exact ⟨now, same ▸ .refuse tried⟩
          | moveOn =>
              obtain ⟨now, ⟨skipped, same⟩ | ⟨tried, same⟩⟩ := turns
              · have tail := ih now (by rwa [same])
                rw [same] at tail
                exact tail.imp (.skip skipped)
              · have tail := ih now (by rw [same, List.append_assoc]; exact recorded.append _)
                rw [same] at tail
                exact tail.imp (.fruitless tried)
          | descend path =>
              obtain ⟨now, tried, same, valid, novel⟩ := turns
              have here : Recorded (setting.view after) (insert x set) := by
                rw [same]
                simp [Recorded]
              have inside := nested path (insert x set) after valid now here
              have still : Recorded (setting.view after) set := by
                rw [same, List.append_assoc]
                exact recorded.append _
              simp only
              rw [bind_result]
              cases called : recurse path (insert x set) after with
              | error error last =>
                  rw [called, same] at inside
                  exact ⟨inside.1, .raiseInside tried valid novel inside.2⟩
              | ok value last =>
                  rw [called] at inside
                  have tail := ih inside.1 (still.extends inside.2)
                  rw [same] at inside
                  exact tail.imp (.found tried valid novel inside.2)

theorem Setting.Follows.unroll (follows : setting.Follows turn)
    {body : (List α → Finset α → EStateM ε σ β) → List α → Finset α → EStateM ε σ β} {result : β}
    (loops : setting.Loops turn body result) (cutoff : ε) (limit : Nat) :
    setting.Nested (unroll body cutoff limit) := by
  induction limit with
  | zero => exact fun path set state _ invariant _ => ⟨invariant, .cut⟩
  | succ limit ih =>
      intro path set state valid invariant recorded
      have searches := follows.loop ih invariant recorded path
      rw [Exploration.unroll, loops _ _ _ valid, bind_result]
      cases done : searchLoop turn (Exploration.unroll body cutoff limit) set path state with
      | error error after =>
          rw [done] at searches
          exact searches
      | ok value after =>
          rw [done] at searches
          exact searches

/-- Nested calls that agree on the paths they are made for give the same loop. -/
theorem Setting.Ranked.loop {good : Finset α → List α → Prop} {rank : Finset α → Nat}
    (ranked : setting.Ranked turn good rank) (follows : setting.Follows turn) (nested : setting.Nested recurse)
    (agree : ∀ path deeper state, setting.rules.valid path → setting.inv state →
      Recorded (setting.view state) deeper → good deeper path → rank deeper < rank set →
        recurse path deeper state = other path deeper state)
    (invariant : setting.inv state) (recorded : Recorded (setting.view state) set) (suited : good set items) :
    searchLoop turn recurse set items state = searchLoop turn other set items state := by
  induction items generalizing state with
  | nil => rfl
  | cons x rest ih =>
      have turns := follows set x state invariant recorded
      have later := ranked.tail set x rest suited
      rw [searchLoop, searchLoop, bind_result, bind_result]
      cases done : turn set x state with
      | error error after => rfl
      | ok outcome after =>
          rw [done] at turns
          cases outcome with
          | quit => rfl
          | moveOn =>
              obtain ⟨now, ⟨_, same⟩ | ⟨_, same⟩⟩ := turns
              · exact ih now (by rwa [same]) later
              · exact ih now (by rw [same, List.append_assoc]; exact recorded.append _) later
          | descend path =>
              obtain ⟨now, tried, same, valid, novel⟩ := turns
              have here : Recorded (setting.view after) (insert x set) := by
                rw [same]
                simp [Recorded]
              have still : Recorded (setting.view after) set := by
                rw [same, List.append_assoc]
                exact recorded.append _
              obtain ⟨goodInside, falls⟩ := ranked.descend set x rest state path after invariant recorded suited done
              have inside := nested path (insert x set) after valid now here
              simp only
              rw [bind_result, bind_result, ← agree path (insert x set) after valid now here goodInside falls]
              cases called : recurse path (insert x set) after with
              | error error last => rfl
              | ok value last =>
                  rw [called] at inside
                  exact ih inside.1 (still.extends inside.2) later

/-- A limit above the rank of the outermost call is never noticed. -/
theorem Setting.Ranked.unroll {good : Finset α → List α → Prop} {rank : Finset α → Nat}
    (ranked : setting.Ranked turn good rank) (follows : setting.Follows turn)
    {body : (List α → Finset α → EStateM ε σ β) → List α → Finset α → EStateM ε σ β} {result : β}
    (loops : setting.Loops turn body result) (cutoff : ε) {limit larger : Nat} (enough : rank set < limit)
    (more : rank set < larger) (valid : setting.rules.valid path) (invariant : setting.inv state)
    (recorded : Recorded (setting.view state) set) (suited : good set path) :
    unroll body cutoff limit path set state = unroll body cutoff larger path set state := by
  induction limit generalizing larger path set state with
  | zero => omega
  | succ limit ih =>
      cases larger with
      | zero => omega
      | succ larger =>
          rw [Exploration.unroll, Exploration.unroll, loops _ _ _ valid, loops _ _ _ valid, bind_result, bind_result]
          have agree (path : List α) (deeper : Finset α) (state : σ) (valid : setting.rules.valid path)
              (now : setting.inv state) (here : Recorded (setting.view state) deeper) (fits : good deeper path)
              (falls : rank deeper < rank set) :
              Exploration.unroll body cutoff limit path deeper state =
                Exploration.unroll body cutoff larger path deeper state :=
            ih (by omega) (by omega) valid now here fits
          rw [ranked.loop follows (follows.unroll loops cutoff limit) agree invariant recorded suited]

section Openings

variable {opening : EStateM ε σ (Except β (List α))} {result : β}

theorem Setting.Follows.searchFrom (follows : setting.Follows turn) (nested : setting.Nested recurse)
    (opens : setting.Opens set (setting.view state) (opening state)) :
    setting.Starts set (setting.view state) (searchFrom opening turn recurse set result state) := by
  rw [Exploration.searchFrom, bind_result]
  cases done : opening state with
  | error error after =>
      rw [done] at opens
      exact ⟨opens.1, .inl opens.2⟩
  | ok answer after =>
      rw [done] at opens
      cases answer with
      | error early => exact ⟨opens.1, .inl opens.2⟩
      | ok path =>
          obtain ⟨now, same, valid, novel⟩ := opens
          have root : Recorded (setting.view after) set := by
            rw [same]
            simp [Recorded]
          have searches := follows.loop nested now root path
          simp only
          rw [bind_result]
          cases looped : searchLoop turn recurse set path after with
          | error error last =>
              rw [looped, same] at searches
              exact ⟨searches.1, .inr ⟨path, valid, novel, searches.2⟩⟩
          | ok value last =>
              rw [looped, same] at searches
              exact ⟨searches.1, .inr ⟨path, valid, novel, searches.2⟩⟩

/-- A limit that is not below the rank of the first set is never noticed. -/
theorem Setting.Ranked.searchFrom {good : Finset α → List α → Prop} {rank : Finset α → Nat}
    (ranked : setting.Ranked turn good rank) (follows : setting.Follows turn)
    {body : (List α → Finset α → EStateM ε σ β) → List α → Finset α → EStateM ε σ β}
    (loops : setting.Loops turn body result) (cutoff : ε) {limit : Nat} (enough : rank set ≤ limit)
    (opens : setting.Opens set (setting.view state) (opening state))
    (suited : ∀ path after, opening state = .ok (.ok path) after → good set path) :
    searchFrom opening turn (Exploration.unroll body cutoff limit) set result state =
      searchFrom opening turn (Exploration.unroll body cutoff (rank set)) set result state := by
  rw [Exploration.searchFrom, Exploration.searchFrom, bind_result, bind_result]
  cases done : opening state with
  | error error after => rfl
  | ok answer after =>
      rw [done] at opens
      cases answer with
      | error early => rfl
      | ok path =>
          obtain ⟨now, same, valid, novel⟩ := opens
          have root : Recorded (setting.view after) set := by
            rw [same]
            simp [Recorded]
          have agree (path : List α) (deeper : Finset α) (state : σ) (valid : setting.rules.valid path)
              (now : setting.inv state) (here : Recorded (setting.view state) deeper) (fits : good deeper path)
              (falls : rank deeper < rank set) :
              Exploration.unroll body cutoff limit path deeper state =
                Exploration.unroll body cutoff (rank set) path deeper state :=
            ranked.unroll follows loops cutoff (by omega) falls valid now here fits
          simp only
          rw [bind_result, bind_result,
            ranked.loop follows (follows.unroll loops cutoff limit) agree now root (suited path after done)]

end Openings

end Rules

end ActiveBgp.Data.Exploration

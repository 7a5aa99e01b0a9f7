import ActiveBgp.Rib.Removal
import ActiveBgp.Python.Sequences
import Mathlib.Data.Char
import Mathlib.Data.List.Lex

namespace ActiveBgp.Rib

open ActiveBgp.Python ActiveBgp.Data

variable {ip : Ipaddress} {ω : Type}

/-! # The operations that as_seq inherits

`BGPList` wraps six methods of `UserList`, which check what they put into the
list and call back.  The other mutating methods are inherited as they are.  They
print nothing, so the last line goes on showing the list only where they leave
the list as it was.
-/

/-- What is assigned to a slice or appended: a value, or something else that can
be iterated over, with what `str` makes of it. -/
inductive Argument where
  | single (value : Value)
  | many (items : List Value) (shown : Text)
deriving DecidableEq, Repr

/-- A string is iterated over by its characters. -/
def Argument.iterate : Argument → Except PyError (List Value)
  | .single (.str text) => .ok (text.map fun char => .str [char])
  | .single _ => .error .typeError
  | .many items _ => .ok items

/-- `ASList._check` of the argument as a whole. -/
def Argument.check : Argument → Except PyError Value
  | .single value => asListCheck value
  | .many _ shown =>
      .error (.valueError ("ASN could not be converted to int: (".toList ++ shown ++ ")".toList))

/-- The order of the keys of a sort.  Numbers and strings are never compared with
each other, nor anything with `None`: the sort raises before. -/
def Value.le : Value → Value → Bool
  | .int first, .int second => first ≤ second
  | .str first, .str second => first ≤ second
  | .int _, _ => true
  | .str _, .none => true
  | .none, .none => true
  | _, _ => false

def Value.isInt : Value → Bool
  | .int _ => true
  | _ => false

def Value.isStr : Value → Bool
  | .str _ => true
  | _ => false

/-- A list of fewer than two keys is sorted without a comparison. -/
def comparable (keys : List Value) : Bool :=
  keys.length < 2 || keys.all Value.isInt || keys.all Value.isStr

def byKey (key : Value → Except PyError Value) (first second : Value) : Bool :=
  ((key first).toOption.getD first).le ((key second).toOption.getD second)

/-- The mutating methods that `BGPList` does not override.  Without a key, `sort`
compares the values themselves. -/
inductive Inherited where
  | extend (argument : Argument)
  | iadd (argument : Argument)
  | imul (count : Value)
  | clear
  | delItem (index : Int)
  | delSlice (slice : Slice)
  | reverse
  | sort (key : Value → Except PyError Value) (descending : Bool)

/-- The change that `UserList` makes to its `data`. -/
def Inherited.edit (failed : FailedSort Value) : Inherited → Effect (List Value) Unit
  | .extend argument => do
      let added ← Effect.ofExcept argument.iterate
      modify fun items => items ++ added
  | .iadd argument => do
      let added ← Effect.ofExcept argument.iterate
      modify fun items => items ++ added
  | .imul (.int count) => modify fun items => repeated items count
  | .imul _ => throw .typeError
  | .clear => set ([] : List Value)
  | .delItem index => do
      let items ← get
      let after ← Effect.ofExcept (orRaise .indexError (pop? items index))
      set after
  | .delSlice slice =>
      if slice.step = some 0 then throw (.valueError "slice step cannot be zero".toList)
      else modify fun items => deleteSlice items slice
  | .reverse => modify List.reverse
  | .sort key descending => do
      let items ← get
      let keys ← Effect.ofExcept (items.mapM key)
      if comparable keys then
        set (sortBy (fun first second => byKey key first second) descending items)
      else
        set (failed.left items)
        throw .typeError

/-- The mutating operations of `as_seq`. -/
inductive Mutator where
  | wrapped (op : ListOp)
  | setSlice (slice : Slice) (argument : Argument)
  | inherited (op : Inherited)

/-- A slice goes to the wrapped `__setitem__`, which makes a number of what is assigned to it
and then cannot assign the number to a slice. -/
def Methods.mutate (methods : Methods ip ω) (failed : FailedSort Value) : Mutator → Effect (Object ip ω) Unit
  | .wrapped op => methods.listOp .asSeq op
  | .setSlice slice argument => methods.callbackAfter (Object.changeList .asSeq fun _ => do
      let _ ← argument.check
      throw (if slice.step = some 0 then .valueError "slice step cannot be zero".toList else .typeError))
  | .inherited op => Effect.within (fun object => object.nlri.asSeq)
      (fun items object => { object with nlri := object.nlri.setList items .asSeq }) (op.edit failed)

/-- The operation leaves the list as it was. -/
def Inherited.Idle (items : List Value) : Inherited → Prop
  | .extend argument => ∀ added, argument.iterate = .ok added → added = []
  | .iadd argument => ∀ added, argument.iterate = .ok added → added = []
  | .imul count => ∀ number, count = .int number → number = 1 ∨ items = []
  | .clear => items = []
  | .delItem index => position? items.length index = none
  | .delSlice slice => slice.step ≠ some 0 → ∀ position < items.length, slice.selects items.length position = false
  | .reverse => items.reverse = items
  | .sort key descending => ∀ keys, items.mapM key = .ok keys → comparable keys = true ∧
      items.Pairwise fun first second => if descending then byKey key second first else byKey key first second

def Mutator.Sound (nlri : NLRI ip) : Mutator → Prop
  | .wrapped _ => ∃ route, nlri.route = .ok route
  | .setSlice _ _ => True
  | .inherited op => op.Idle nlri.asSeq

def Command.route : Command ip → Route ip
  | .announce route => route
  | .withdraw route => route

/-- The last line that was printed about the network. -/
def lastLine (network : ip.Network) (output : List (Command ip)) : Option (Command ip) :=
  (output.filter fun command => command.route.routePrefix = network).getLast?

/-- The elements are AS numbers in range, and the last line announces them. -/
structure Current (object : Object ip (List (Command ip))) : Prop where
  asSeq : ∀ value ∈ object.nlri.asSeq, value.IsAsn
  shown : ∃ route, lastLine object.nlri.routePrefix object.world = some (.announce route) ∧
    route.asSeq.map .int = object.nlri.asSeq

structure Live (object : Object ip (List (Command ip))) : Prop extends Current object where
  announced : object.nlri.announce = true

/-- An operation on `as_seq`, one of whose callers may have caught an exception before. -/
def mutation (failed : FailedSort Value) (object : Object ip (List (Command ip))) (operation : Mutator) :
    Option (Object ip (List (Command ip))) :=
  some (final ((printing ip).mutate failed operation object))

section Edits

variable {failed : FailedSort Value} {items : List Value} {op : Inherited} {key : Value → Except PyError Value}

theorem Value.total_le (first second : Value) : first.le second = true ∨ second.le first = true := by
  cases first <;> cases second <;> simp [Value.le, le_total]

theorem Value.trans_le {first second third : Value} (lower : first.le second = true)
    (upper : second.le third = true) : first.le third = true := by
  cases first <;> cases second <;> cases third <;> simp_all [Value.le]
  · exact Int.le_trans lower upper
  · exact le_trans lower upper

instance : Std.Total fun first second => byKey key first second = true :=
  ⟨fun _ _ => Value.total_le _ _⟩

instance : IsTrans Value fun first second => byKey key first second = true :=
  ⟨fun _ _ _ => Value.trans_le⟩

theorem Inherited.edit_extend (failed : FailedSort Value) (argument : Argument) (items : List Value) :
    (∃ error, (extend argument).edit failed items = .error error items) ∨
    ∃ after, (extend argument).edit failed items = .ok () after ∧ (after = items ↔ (extend argument).Idle items) := by
  cases iterated : argument.iterate with
  | error error => exact .inl ⟨error, by simp [Inherited.edit, Effect.bind_eq, iterated]⟩
  | ok added =>
      exact .inr ⟨items ++ added, by simp [Inherited.edit, Effect.bind_eq, iterated], by simp [Inherited.Idle, iterated]⟩

/-- An operation that returns leaves the list as it was exactly if it is idle; one
that raises does so if it is. -/
theorem Inherited.edit_cases (failed : FailedSort Value) (op : Inherited) (items : List Value) :
    (∃ error after, op.edit failed items = .error error after ∧ (op.Idle items → after = items)) ∨
    ∃ after, op.edit failed items = .ok () after ∧ (after = items ↔ op.Idle items) := by
  have kept (error : PyError) (same : op.edit failed items = .error error items) :
      ∃ error after, op.edit failed items = .error error after ∧ (op.Idle items → after = items) :=
    ⟨error, items, same, fun _ => rfl⟩
  cases op with
  | extend argument => exact (edit_extend failed argument items).imp (fun ⟨error, same⟩ => kept error same) id
  | iadd argument => exact (edit_extend failed argument items).imp (fun ⟨error, same⟩ => kept error same) id
  | imul count =>
      cases count with
      | int number => exact .inr ⟨repeated items number, rfl, by simp [Inherited.Idle, repeated_eq_self]⟩
      | str text => exact .inl (kept _ rfl)
      | none => exact .inl (kept _ rfl)
  | clear => exact .inr ⟨[], rfl, eq_comm⟩
  | reverse => exact .inr ⟨items.reverse, rfl, Iff.rfl⟩
  | delItem index =>
      cases found : position? items.length index with
      | none => exact .inl (kept .indexError (by simp [Inherited.edit, Effect.bind_eq, pop?, found, orRaise]))
      | some position =>
          refine .inr ⟨items.eraseIdx position, by simp [Inherited.edit, Effect.bind_eq, pop?, found, orRaise], ?_⟩
          refine iff_of_false (fun same => ?_) (by simp [Inherited.Idle, found])
          have inside := position?_lt found
          have shorter := congrArg List.length same
          rw [List.length_eraseIdx_of_lt inside] at shorter
          omega
  | delSlice slice =>
      by_cases zero : slice.step = some 0
      · have raised : (delSlice slice).edit failed items =
            .error (.valueError "slice step cannot be zero".toList) items := by
          simp only [Inherited.edit, if_pos zero, Effect.throw_apply]
        exact .inl (kept _ raised)
      · refine .inr ⟨deleteSlice items slice, by simp only [Inherited.edit, if_neg zero, Effect.modify_apply], ?_⟩
        rw [deleteSlice_eq_self]
        exact ⟨fun none _ => none, fun idle => idle zero⟩
  | sort key descending =>
      cases computed : items.mapM key with
      | error error => exact .inl (kept error (by simp [Inherited.edit, Effect.bind_eq, computed]))
      | ok keys =>
          by_cases compared : comparable keys = true
          · refine .inr ⟨sortBy (fun first second => byKey key first second) descending items, ?_, ?_⟩
            · simp [Inherited.edit, Effect.bind_eq, computed, compared]
            · rw [sortBy_eq_self]
              simp [Inherited.Idle, computed, compared]
          · refine .inl ⟨.typeError, failed.left items, ?_, fun idle => absurd (idle keys computed).1 compared⟩
            simp [Inherited.edit, Effect.bind_eq, computed, compared]

end Edits

section Operations

variable {nlri : NLRI ip} {items : List Value} {network : ip.Network} {output : List (Command ip)}
  {object : Object ip (List (Command ip))}

theorem lastLine_append (output : List (Command ip)) {command : Command ip}
    (about : command.route.routePrefix = network) : lastLine network (output ++ [command]) = some command := by
  simp [lastLine, about]

/-- Only the AS numbers in range matter for printing the entry with another `as_seq`. -/
theorem NLRI.route_asSeq {route : Route ip} (rendered : nlri.route = .ok route)
    (asns : ∀ value ∈ items, value.IsAsn) :
    ∃ numbers, numbers.map .int = items ∧
      (nlri.setList items .asSeq).route = .ok { route with asSeq := numbers } := by
  obtain ⟨community, communityDone, rendered⟩ := except_bind_eq_ok.mp rendered
  obtain ⟨asSeq, asSeqDone, rendered⟩ := except_bind_eq_ok.mp rendered
  obtain ⟨asSet, asSetDone, rendered⟩ := except_bind_eq_ok.mp rendered
  cases rendered
  have each : ∀ value ∈ items, ∃ number, value.toInt = .ok number := fun value member => by
    obtain ⟨asn, rfl, _⟩ := asns value member
    exact ⟨asn, rfl⟩
  obtain ⟨numbers, done⟩ := mapM_ok_iff.mpr each
  refine ⟨numbers, map_of_mapM (fun value member number same => ?_) done, ?_⟩
  · obtain ⟨asn, rfl, _⟩ := asns value member
    cases same
    rfl
  · simp only [NLRI.route, NLRI.setList, communityDone, done, asSetDone, except_bind_ok]
    rfl

theorem live_announced {route : Route ip} (announced : nlri.announce = true) (rendered : nlri.route = .ok route)
    (asns : ∀ value ∈ nlri.asSeq, value.IsAsn) (output : List (Command ip)) :
    Live (⟨nlri, output ++ [.announce route]⟩ : Object ip (List (Command ip))) := by
  obtain ⟨numbers, same, again⟩ := NLRI.route_asSeq rendered asns
  have shown : route.asSeq = numbers := by
    have unchanged : nlri.setList nlri.asSeq .asSeq = nlri := rfl
    rw [unchanged, rendered, Except.ok.injEq] at again
    rw [again]
  have line : lastLine nlri.routePrefix (output ++ [.announce route]) = some (.announce route) :=
    lastLine_append output (NLRI.route_prefix rendered)
  exact ⟨⟨asns, route, line, shown ▸ same⟩, announced⟩

/-- The constructor prints the announcement of what it has checked. -/
theorem new_live {kwargs : List Kwarg} {after : List (Command ip)}
    (built : (printing ip).new (some network) kwargs output = .ok nlri after) (announced : nlri.announce = true) :
    Live (⟨nlri, after⟩ : Object ip (List (Command ip))) := by
  rw [printing_new] at built
  cases constructed : NLRI.construct network kwargs with
  | error error => simp [constructed] at built
  | ok fresh =>
      simp only [constructed] at built
      cases flag : fresh.announce with
      | false =>
          simp only [flag, Bool.false_eq_true, if_false] at built
          cases built
          rw [flag] at announced
          contradiction
      | true =>
          cases rendered : fresh.route with
          | error error => simp [flag, rendered] at built
          | ok route =>
              simp only [flag, if_true, rendered] at built
              cases built
              exact live_announced announced rendered (construct_facts constructed).1.asSeq output

/-- An announced entry that can be printed is current after the callback. -/
theorem callback_live {object : Object ip (List (Command ip))} {route : Route ip} (announced : object.nlri.announce = true)
    (rendered : object.nlri.route = .ok route) (asns : ∀ value ∈ object.nlri.asSeq, value.IsAsn) :
    ∃ after, (printing ip).callback object = .ok () after ∧ after.nlri = object.nlri ∧ Live after := by
  have command : object.nlri.command route = .announce route := by simp [NLRI.command, announced]
  refine ⟨⟨object.nlri, object.world ++ [.announce route]⟩, ?_, rfl,
    live_announced announced rendered asns object.world⟩
  rw [← command]
  have called := printing_callback object.nlri object.world
  rwa [if_pos announced, rendered] at called

theorem callback_returned {object : Object ip (List (Command ip))} (announced : object.nlri.announce = true)
    (done : returned ((printing ip).callback object) = true) : ∃ route, object.nlri.route = .ok route := by
  have called := printing_callback object.nlri object.world
  rw [if_pos announced] at called
  cases rendered : object.nlri.route with
  | ok route => exact ⟨route, rfl⟩
  | error error =>
      rw [rendered] at called
      rw [show (printing ip).callback object = _ from called] at done
      contradiction

theorem Methods.wrapped_apply (methods : Methods ip ω) (name : ListName)
    (change : List Value → Except PyError (List Value)) (object : Object ip ω) :
    methods.callbackAfter (Object.changeList name change) object =
      match change (object.nlri.list name) with
      | .error error => .error error object
      | .ok after => methods.callback { object with nlri := object.nlri.setList after name } := by
  rw [Methods.callbackAfter_apply, Object.changeList_apply]
  cases change (object.nlri.list name) <;> rfl

section Wrapped

variable {change : List Value → Except PyError (List Value)} {failed : FailedSort Value}

/-- A wrapped change of an entry that can be printed is announced, unless it raises and changes nothing. -/
theorem Live.wrapped {route : Route ip} (live : Live object) (rendered : object.nlri.route = .ok route)
    (stays : ∀ after, change object.nlri.asSeq = .ok after → ∀ value ∈ after, value.IsAsn) :
    Live (final ((printing ip).callbackAfter (Object.changeList .asSeq change) object)) ∧
      ∃ route, (final ((printing ip).callbackAfter (Object.changeList .asSeq change) object)).nlri.route = .ok route := by
  rw [Methods.wrapped_apply]
  cases changed : change (object.nlri.list .asSeq) with
  | error error => exact ⟨live, route, rendered⟩
  | ok items =>
      have asns := stays items changed
      obtain ⟨_, _, now⟩ := NLRI.route_asSeq rendered asns
      obtain ⟨after, done, same, still⟩ := @callback_live _ { object with nlri := object.nlri.setList items .asSeq } _
        live.announced now asns
      simp only [done, final_ok]
      exact ⟨still, _, by rw [same]; exact now⟩

theorem ListOp.change_asns {op : ListOp} {items after : List Value} (asns : ∀ value ∈ items, value.IsAsn)
    (changed : op.change .asSeq items = .ok after) : ∀ value ∈ after, value.IsAsn := by
  have given : op.Given .asSeq := by cases op <;> trivial
  exact ListOp.change_stored given asns changed

theorem Live.listOp {route : Route ip} (live : Live object) (rendered : object.nlri.route = .ok route) (op : ListOp) :
    Live (final ((printing ip).listOp .asSeq op object)) := by
  have asns (after : List Value) (changed : op.change .asSeq object.nlri.asSeq = .ok after) :
      ∀ value ∈ after, value.IsAsn := ListOp.change_asns live.asSeq changed
  obtain ⟨inner, _, printed⟩ := live.wrapped rendered asns
  rcases (printing ip).listOp_cases .asSeq op with once | twice
  · rwa [once]
  · rw [twice, Methods.callbackAfter_apply]
    cases outcome : (printing ip).callbackAfter (Object.changeList .asSeq (op.change .asSeq)) object with
    | error error after => simpa [outcome] using inner
    | ok _ after =>
        rw [outcome, final_ok] at inner printed
        obtain ⟨last, done, _, still⟩ := callback_live inner.announced printed inner.asSeq
        simpa [done] using still

theorem wrapped_returned (announced : object.nlri.announce = true)
    (asns : ∀ value ∈ object.nlri.asSeq, value.IsAsn)
    (done : returned ((printing ip).callbackAfter (Object.changeList .asSeq change) object) = true) :
    ∃ route, object.nlri.route = .ok route := by
  rw [Methods.wrapped_apply] at done
  cases changed : change (object.nlri.list .asSeq) with
  | error error => simp [changed] at done
  | ok items =>
      simp only [changed] at done
      obtain ⟨route, rendered⟩ := @callback_returned _ { object with nlri := object.nlri.setList items .asSeq }
        announced done
      obtain ⟨_, _, before⟩ := NLRI.route_asSeq rendered asns
      exact ⟨_, before⟩

theorem listOp_returned {op : ListOp} (announced : object.nlri.announce = true)
    (asns : ∀ value ∈ object.nlri.asSeq, value.IsAsn) (done : returned ((printing ip).listOp .asSeq op object) = true) :
    ∃ route, object.nlri.route = .ok route := by
  rcases (printing ip).listOp_cases .asSeq op with once | twice
  · exact wrapped_returned announced asns (once ▸ done)
  · rw [twice, Methods.callbackAfter_apply] at done
    cases outcome : (printing ip).callbackAfter (Object.changeList .asSeq (op.change .asSeq)) object with
    | error error after => simp [outcome] at done
    | ok _ after => exact wrapped_returned announced asns (by rw [outcome]; rfl)

/-- Nothing is printed, so the line that was there has to show the new list. -/
theorem Live.inherited_iff (live : Live object) (items : List Value) :
    Current { object with nlri := object.nlri.setList items .asSeq } ↔ items = object.nlri.asSeq := by
  obtain ⟨route, line, same⟩ := live.shown
  constructor
  · intro current
    obtain ⟨other, again, now⟩ := current.shown
    have equal : route = other := by simpa [line] using line.symm.trans again
    rw [← same, equal]
    exact now.symm
  · rintro rfl
    exact live.toCurrent

/-- A sound operation keeps the entry current, also when it raises. -/
theorem Live.mutate (live : Live object) {operation : Mutator} (sound : operation.Sound object.nlri) :
    Live (final ((printing ip).mutate failed operation object)) := by
  cases operation with
  | wrapped op =>
      obtain ⟨route, rendered⟩ := sound
      exact live.listOp rendered op
  | setSlice slice argument =>
      rw [Methods.mutate, Methods.wrapped_apply]
      cases argument.check <;> exact live
  | inherited op =>
      have unchanged : final (op.edit failed object.nlri.asSeq) = object.nlri.asSeq := by
        rcases op.edit_cases failed object.nlri.asSeq with ⟨error, after, raised, same⟩ | ⟨after, done, same⟩
        · rw [raised]
          exact same sound
        · rw [done]
          exact same.mpr sound
      rw [Methods.mutate, Effect.final_within, unchanged]
      exact live

/-- An operation that returns keeps the entry current only if it is sound. -/
theorem Live.sound (live : Live object) {operation : Mutator}
    (done : returned ((printing ip).mutate failed operation object) = true)
    (current : Current (final ((printing ip).mutate failed operation object))) : operation.Sound object.nlri := by
  cases operation with
  | wrapped op => exact listOp_returned live.announced live.asSeq done
  | setSlice slice argument => trivial
  | inherited op =>
      rw [Methods.mutate] at done current
      rcases op.edit_cases failed object.nlri.asSeq with ⟨error, after, raised, _⟩ | ⟨after, edited, same⟩
      · simp [Effect.within, raised] at done
      · rw [Effect.final_within, edited, final_ok] at current
        exact same.mp ((live.inherited_iff after).mp current)

end Wrapped

end Operations

section Runs

variable {failed : FailedSort Value} {object last : Object ip (List (Command ip))}
  {history : List (Object ip (List (Command ip)) × Mutator)}

def Succeeds (failed : FailedSort Value) (moment : Object ip (List (Command ip)) × Mutator) : Prop :=
  returned ((printing ip).mutate failed moment.2 moment.1) = true

/-- Every operation that returns leaves the entry current. -/
def UpToDate (failed : FailedSort Value) (history : List (Object ip (List (Command ip)) × Mutator)) : Prop :=
  ∀ moment ∈ history, Succeeds failed moment → Current (final ((printing ip).mutate failed moment.2 moment.1))

theorem live_throughout (live : Live object) (run : Run (mutation failed) object history last)
    (sound : ∀ moment ∈ history, moment.2.Sound moment.1.nlri) : Throughout Live history last := by
  have preserved (state : Object ip (List (Command ip))) (operation : Mutator) (after : Object ip (List (Command ip)))
      (before : Live state) (allowed : operation.Sound state.nlri)
      (done : mutation failed state operation = some after) : Live after := by
    cases done
    exact before.mutate allowed
  exact run.invariant live preserved sound

/-- A run of sound operations keeps the entry up to date, and a run in which nothing
raises keeps it so only if all of its operations are sound. -/
theorem current_throughout (live : Live object) (run : Run (mutation failed) object history last) :
    ((∀ moment ∈ history, moment.2.Sound moment.1.nlri) → UpToDate failed history) ∧
    ((∀ moment ∈ history, Succeeds failed moment) → UpToDate failed history →
      ∀ moment ∈ history, moment.2.Sound moment.1.nlri) := by
  constructor
  · intro sound moment member _
    have now := (live_throughout live run sound).1 moment member
    exact (now.mutate (sound moment member)).toCurrent
  · intro succeeds upToDate
    induction run with
    | nil => simp
    | @snoc history state after earlier operation done ih =>
        have before := ih (fun moment member => succeeds moment (by simp [member]))
          (fun moment member => upToDate moment (by simp [member]))
        have now := (live_throughout live earlier before).2
        intro moment member
        rcases List.mem_append.mp member with old | new
        · exact before moment old
        · rw [List.mem_singleton.mp new]
          have returns := succeeds (state, operation) (by simp)
          exact now.sound returns (upToDate (state, operation) (by simp) returns)

end Runs

section Example

def exampleEntry : NLRI ipv4 where
  announce := true
  nextHop := .self
  community := []
  asSeq := [.int 65001, .int 65002]
  asSet := []
  routePrefix := exampleNetwork

def exampleLine : Command ipv4 := .announce {
  routePrefix := exampleNetwork
  nextHop := .self
  community := []
  asSeq := [65001, 65002]
  asSet := [] }

/-- A sort that leaves the list alone when a comparison raises. -/
def carefulSort : FailedSort Value := ⟨id, fun _ => .refl _⟩

theorem example_constructed : (printing ipv4).new (some exampleNetwork)
    [.list .asSeq [.int 65001, .int 65002]] [] = .ok exampleEntry [exampleLine] := by
  rfl

def exampleObject : Object ipv4 (List (Command ipv4)) := ⟨exampleEntry, [exampleLine]⟩

def extending : Mutator := .inherited (.extend (.many [.int 65003] "[65003]".toList))

/-- `extend` adds an AS number that is not announced. -/
theorem extended_unannounced : ¬ ∀ (history : List (Object ipv4 (List (Command ipv4)) × Mutator))
    (last : Object ipv4 (List (Command ipv4))),
    Run (mutation carefulSort) exampleObject history last → UpToDate carefulSort history := by
  intro all
  have run : Run (mutation carefulSort) exampleObject ([] ++ [(exampleObject, extending)]) _ := Run.nil.snoc extending rfl
  obtain ⟨route, line, same⟩ := (all _ _ run (exampleObject, extending) (List.mem_singleton_self _) rfl).shown
  have shown : exampleLine = .announce route := Option.some.inj line
  cases shown
  contradiction

def prepending : Mutator := .wrapped (.prepend (.str "65000".toList))

def repeatingOnce : Mutator := .inherited (.imul (.int 1))

theorem current_throughout_example : ∃ (history : List (Object ipv4 (List (Command ipv4)) × Mutator))
    (last : Object ipv4 (List (Command ipv4))), Run (mutation carefulSort) exampleObject history last ∧
    history.map Prod.snd = [prepending, repeatingOnce] ∧ UpToDate carefulSort history := by
  have live : Live exampleObject := new_live example_constructed rfl
  have first : Run (mutation carefulSort) exampleObject ([] ++ [(exampleObject, prepending)]) _ :=
    Run.nil.snoc prepending rfl
  have run := first.snoc repeatingOnce rfl
  refine ⟨_, _, run, rfl, (current_throughout live run).1 ?_⟩
  intro moment member
  rcases List.mem_append.mp member with old | new
  · rw [List.mem_singleton.mp old]
    exact ⟨_, rfl⟩
  · rw [List.mem_singleton.mp new]
    exact fun number same => .inl (Value.int.inj same).symm

end Example

end ActiveBgp.Rib

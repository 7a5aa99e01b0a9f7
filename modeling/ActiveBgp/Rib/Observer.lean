import ActiveBgp.Rib.Nlri

namespace ActiveBgp.Rib

open ActiveBgp.Python

variable {ip : Ipaddress} {ω : Type}

/-! # What every setter owes to the observers of an NLRI

An observer of NLRI objects is described by two predicates.  `Synced` says that
the world shows the object as it is; `Pending` says that only attributes have
changed since.  Once announcing is known to turn the second into the first,
every setter and every list operation keeps objects synced, also when it raises.
-/

/-- Communities are stored strings and AS numbers are in range. -/
structure NLRI.WellTyped (nlri : NLRI ip) : Prop where
  community : ∀ value ∈ nlri.community, value.IsCommunity
  asSeq : ∀ value ∈ nlri.asSeq, value.IsAsn
  asSet : ∀ value ∈ nlri.asSet, value.IsAsn

def ListName.Stored : ListName → Value → Prop
  | .community => Value.IsCommunity
  | .asSeq => Value.IsAsn
  | .asSet => Value.IsAsn

/-- Values that may be given for the attribute: communities are integers or have a colon. -/
def ListName.Given : ListName → Value → Prop
  | .community => Value.Colon
  | .asSeq => fun _ => True
  | .asSet => fun _ => True

def Kwarg.Given : Kwarg → Prop
  | .list name items => ∀ value ∈ items, name.Given value
  | _ => True

def ListOp.Given (name : ListName) : ListOp → Prop
  | .setItem _ value => name.Given value
  | .append value => name.Given value
  | .insert _ value => name.Given value
  | .prepend value => name.Given value
  | .pop _ => True
  | .remove _ => True

/-- A change of attributes that leaves the prefix and the announce flag alone. -/
structure Revision (before after : NLRI ip) : Prop where
  announce : after.announce = before.announce
  routePrefix : after.routePrefix = before.routePrefix
  typed : after.WellTyped

/-- The attributes after `setattr`, without the calls it makes. -/
def NLRI.assign (nlri : NLRI ip) : Kwarg → Except PyError (NLRI ip)
  | .nextHop value =>
      if value = .str "self".toList then .ok { nlri with nextHop := .self }
      else match ip.address? value with
        | none => .error (.valueError "does not appear to be an IPv4 or IPv6 address".toList)
        | some host => .ok { nlri with nextHop := .address host }
  | .list name items => (bgpList name.check items).map fun stored => nlri.setList stored name
  | .announce value => .ok { nlri with announce := value }
  | .other name => if name.val ∈ Methods.readOnly then .error .attributeError else .ok nlri

/-- The object that the constructor builds, without the calls it makes. -/
def NLRI.construct (routePrefix : ip.Network) (kwargs : List Kwarg) : Except PyError (NLRI ip) := do
  if kwargs.any Kwarg.isOther then throw .typeError
  let community ← bgpList communityListCheck (Kwarg.listIn kwargs .community)
  let asSeq ← bgpList asListCheck (Kwarg.listIn kwargs .asSeq)
  let asSet ← bgpList asListCheck (Kwarg.listIn kwargs .asSet)
  let nlri : NLRI ip := { announce := false, nextHop := .self, community, asSeq, asSet, routePrefix }
  let nlri ← nlri.assign (.nextHop ((kwargs.findSome? Kwarg.nextHop?).getD (.str "self".toList)))
  return { nlri with announce := (kwargs.findSome? Kwarg.announce?).getD true }

structure Observer (methods : Methods ip ω) (Synced Pending : Object ip ω → Prop) : Prop where
  typed : ∀ object, Synced object → object.nlri.WellTyped
  revise : ∀ object nlri, Synced object → Revision object.nlri nlri → Pending { object with nlri }
  notify : ∀ object, Pending object →
    ∃ world, methods.doAnnounce object.nlri object.world = .ok () world ∧ Synced { object with world }
  announce : ∀ object, Synced object → object.nlri.announce = false →
    ∃ world, methods.doAnnounce { object.nlri with announce := true } object.world = .ok () world ∧
      Synced ⟨{ object.nlri with announce := true }, world⟩
  withdraw : ∀ object, Synced object → object.nlri.announce = true →
    ∃ world, methods.doWithdraw { object.nlri with announce := false } object.world = .ok () world ∧
      Synced ⟨{ object.nlri with announce := false }, world⟩

theorem ListName.check_stored {name : ListName} {value checked : Value} (given : name.Given value)
    (accepted : name.check value = .ok checked) : name.Stored checked := by
  cases name with
  | community => exact communityListCheck_ok given accepted
  | asSeq => exact asListCheck_ok accepted
  | asSet => exact asListCheck_ok accepted

theorem NLRI.WellTyped.list {nlri : NLRI ip} (typed : nlri.WellTyped) (name : ListName) :
    ∀ value ∈ nlri.list name, name.Stored value := by
  cases name with
  | community => exact typed.community
  | asSeq => exact typed.asSeq
  | asSet => exact typed.asSet

theorem NLRI.WellTyped.setList {nlri : NLRI ip} (typed : nlri.WellTyped) {name : ListName}
    {items : List Value} (stored : ∀ value ∈ items, name.Stored value) :
    Revision nlri (nlri.setList items name) := by
  cases name with
  | community => exact ⟨rfl, rfl, stored, typed.asSeq, typed.asSet⟩
  | asSeq => exact ⟨rfl, rfl, typed.community, stored, typed.asSet⟩
  | asSet => exact ⟨rfl, rfl, typed.community, typed.asSeq, stored⟩

theorem Methods.callback_ok {methods : Methods ip ω} {object : Object ip ω} {world : ω}
    (done : methods.doAnnounce object.nlri object.world = .ok () world) :
    methods.callback object = .ok () { object with world } := by
  simp [Methods.callback, Effect.bind_eq, Effect.within, done]

theorem Methods.withdrawal_ok {methods : Methods ip ω} {object : Object ip ω} {world : ω}
    (done : methods.doWithdraw object.nlri object.world = .ok () world) :
    methods.withdrawal object = .ok () { object with world } := by
  simp [Methods.withdrawal, Effect.bind_eq, Effect.within, done]

@[simp] theorem Object.update_apply (change : NLRI ip → NLRI ip) (object : Object ip ω) :
    Object.update change object = .ok () { object with nlri := change object.nlri } := rfl

/-- What a wrapped operation does to the list itself. -/
def ListOp.change (name : ListName) : ListOp → List Value → Except PyError (List Value)
  | .setItem index value, items => do
      let value ← name.check value
      orRaise .indexError (setItem? items index value)
  | .append value, items => do
      let value ← name.check value
      return items ++ [value]
  | .insert index value, items => do
      let value ← name.check value
      return insertAt items index value
  | .pop index, items => orRaise .indexError (pop? items index)
  | .remove value, items => orRaise (.valueError "list.remove(x): x not in list".toList) (remove? items value)
  | .prepend value, items => do
      let value ← name.check value
      return insertAt items 0 value

theorem Object.changeList_apply (name : ListName) (change : List Value → Except PyError (List Value))
    (object : Object ip ω) : Object.changeList name change object =
      match change (object.nlri.list name) with
      | .error error => .error error object
      | .ok after => .ok () { object with nlri := object.nlri.setList after name } := by
  cases changed : change (object.nlri.list name) <;> simp [Object.changeList, Effect.bind_eq, changed]

theorem Methods.callbackAfter_apply (methods : Methods ip ω) (change : Effect (Object ip ω) Unit)
    (object : Object ip ω) : methods.callbackAfter change object =
      match change object with
      | .error error after => .error error after
      | .ok _ after => methods.callback after := by
  rw [Methods.callbackAfter, Effect.bind_eq]
  cases change object <;> rfl

/-- `prepend` calls back twice, the other operations once. -/
theorem Methods.listOp_cases (methods : Methods ip ω) (name : ListName) (op : ListOp) :
    methods.listOp name op = methods.callbackAfter (Object.changeList name (op.change name)) ∨
    methods.listOp name op =
      methods.callbackAfter (methods.callbackAfter (Object.changeList name (op.change name))) := by
  cases op with
  | prepend value => exact .inr rfl
  | _ => exact .inl rfl

theorem ListOp.change_stored {name : ListName} {op : ListOp} {items after : List Value} (given : op.Given name)
    (stored : ∀ value ∈ items, name.Stored value) (changed : op.change name items = .ok after) :
    ∀ value ∈ after, name.Stored value := by
  have either {value checked member : Value} (allowed : name.Given value) (accepted : name.check value = .ok checked)
      (inside : member ∈ items ∨ member = checked) : name.Stored member := by
    rcases inside with old | rfl
    · exact stored member old
    · exact ListName.check_stored allowed accepted
  intro member inside
  cases op with
  | setItem index value =>
      obtain ⟨checked, accepted, done⟩ := except_bind_eq_ok.mp changed
      exact either given accepted (mem_setItem? (orRaise_eq_ok.mp done) inside)
  | append value =>
      obtain ⟨checked, accepted, done⟩ := except_bind_eq_ok.mp changed
      cases done
      exact either given accepted (by simpa using inside)
  | insert index value =>
      obtain ⟨checked, accepted, done⟩ := except_bind_eq_ok.mp changed
      cases done
      exact either given accepted (mem_insertAt inside)
  | pop index => exact stored member (mem_pop? (orRaise_eq_ok.mp changed) inside)
  | remove value => exact stored member (mem_remove? (orRaise_eq_ok.mp changed) inside)
  | prepend value =>
      obtain ⟨checked, accepted, done⟩ := except_bind_eq_ok.mp changed
      cases done
      exact either given accepted (mem_insertAt inside)

namespace Observer

variable {methods : Methods ip ω} {Synced Pending : Object ip ω → Prop}
  (observer : Observer methods Synced Pending) {object : Object ip ω}

include observer

theorem callback (pending : Pending object) :
    ∃ after, methods.callback object = .ok () after ∧ Synced after := by
  obtain ⟨world, done, synced⟩ := observer.notify object pending
  exact ⟨_, Methods.callback_ok done, synced⟩

/-- The decorated change stays synced if the change itself ends pending, or
raises without having changed anything that is observed. -/
theorem callbackAfter {change : Effect (Object ip ω) Unit}
    (raised : ∀ error after, change object = .error error after → Synced after)
    (changed : ∀ after, change object = .ok () after → Pending after) :
    Synced (final (methods.callbackAfter change object)) := by
  rw [Methods.callbackAfter_apply]
  cases outcome : change object with
  | error error after => exact raised error after outcome
  | ok value after =>
      obtain ⟨last, done, synced⟩ := observer.callback (changed after outcome)
      simpa [done] using synced

theorem setAnnounce (synced : Synced object) (value : Bool) :
    ∃ after, methods.setAnnounce value object = .ok () after ∧ Synced after ∧
      after.nlri = { object.nlri with announce := value } := by
  by_cases same : object.nlri.announce = value
  · refine ⟨object, by simp [Methods.setAnnounce, Effect.bind_eq, same], synced, ?_⟩
    rw [← same]
  · cases value with
    | true =>
        obtain ⟨world, done, shown⟩ := observer.announce object synced (by simpa using same)
        have called : methods.callback ⟨{ object.nlri with announce := true }, object.world⟩ =
            .ok () ⟨{ object.nlri with announce := true }, world⟩ := Methods.callback_ok done
        refine ⟨_, ?_, shown, rfl⟩
        simp [Methods.setAnnounce, Effect.bind_eq, same, called]
    | false =>
        obtain ⟨world, done, shown⟩ := observer.withdraw object synced (by simpa using same)
        have called : methods.withdrawal ⟨{ object.nlri with announce := false }, object.world⟩ =
            .ok () ⟨{ object.nlri with announce := false }, world⟩ := Methods.withdrawal_ok done
        refine ⟨_, ?_, shown, rfl⟩
        simp [Methods.setAnnounce, Effect.bind_eq, same, called]

theorem setNextHop (synced : Synced object) (value : Value) :
    match object.nlri.assign (.nextHop value) with
    | .ok nlri => ∃ world, methods.setNextHop value object = .ok () ⟨nlri, world⟩ ∧ Synced ⟨nlri, world⟩
    | .error error => methods.setNextHop value object = .error error object := by
  have typed := observer.typed object synced
  have assigned (hop : NextHop ip) :
      ∃ world, methods.callback { object with nlri := { object.nlri with nextHop := hop } } =
        .ok () ⟨{ object.nlri with nextHop := hop }, world⟩ ∧
        Synced ⟨{ object.nlri with nextHop := hop }, world⟩ := by
    obtain ⟨world, done, shown⟩ := observer.notify _ (observer.revise object
      { object.nlri with nextHop := hop } synced ⟨rfl, rfl, typed.community, typed.asSeq, typed.asSet⟩)
    exact ⟨world, Methods.callback_ok done, shown⟩
  -- Assigning the next hop that is already there calls nothing.
  have kept (hop : NextHop ip) (same : object.nlri.nextHop = hop) :
      ({ object.nlri with nextHop := hop } : NLRI ip) = object.nlri := by rw [← same]
  simp only [NLRI.assign, Methods.setNextHop, Effect.bind_eq, Effect.get_apply]
  by_cases isSelf : value = .str "self".toList
  · simp only [if_pos isSelf]
    by_cases same : object.nlri.nextHop = .self
    · rw [kept _ same]
      exact ⟨object.world, by simp [same], synced⟩
    · obtain ⟨world, done, shown⟩ := assigned .self
      exact ⟨world, by simp [same, Effect.bind_eq, done], shown⟩
  · simp only [if_neg isSelf]
    cases parsed : ip.address? value with
    | none => rfl
    | some host =>
        by_cases same : object.nlri.nextHop = .address host
        · simp only [kept _ same]
          exact ⟨object.world, by simp [same], synced⟩
        · obtain ⟨world, done, shown⟩ := assigned (.address host)
          exact ⟨world, by simp [same, Effect.bind_eq, done], shown⟩

theorem assignList (synced : Synced object) {name : ListName} {items : List Value}
    (given : ∀ value ∈ items, name.Given value) :
    match object.nlri.assign (.list name items) with
    | .ok nlri => ∃ world, methods.assignList name items object = .ok () ⟨nlri, world⟩ ∧ Synced ⟨nlri, world⟩
    | .error error => methods.assignList name items object = .error error object := by
  cases built : bgpList name.check items with
  | error error => simp [NLRI.assign, built, Except.map, Methods.assignList, Methods.callbackAfter, Effect.bind_eq]
  | ok stored =>
      simp only [NLRI.assign, built, Except.map]
      have checked : ∀ value ∈ stored, name.Stored value :=
        bgpList_forall (fun _ _ => ListName.check_stored) given built
      obtain ⟨world, done, shown⟩ := observer.notify _ (observer.revise object
        (object.nlri.setList stored name) synced ((observer.typed object synced).setList checked))
      refine ⟨world, ?_, shown⟩
      simp [Methods.assignList, Methods.callbackAfter, Effect.bind_eq, built, Methods.callback_ok done]

theorem wrapped (synced : Synced object) {name : ListName}
    {change : List Value → Except PyError (List Value)}
    (stays : ∀ items after, (∀ value ∈ items, name.Stored value) → change items = .ok after →
      ∀ value ∈ after, name.Stored value) :
    Synced (final (methods.callbackAfter (Object.changeList name change) object)) := by
  have typed := observer.typed object synced
  have applied := Object.changeList_apply name change object
  apply observer.callbackAfter
  · intro error after outcome
    rw [applied] at outcome
    split at outcome
    · cases outcome
      exact synced
    · contradiction
  · intro last outcome
    rw [applied] at outcome
    split at outcome
    · contradiction
    · rename_i after changed
      cases outcome
      exact observer.revise object _ synced (typed.setList (stays _ _ (typed.list name) changed))

theorem listOp (synced : Synced object) {name : ListName} {op : ListOp} (given : op.Given name) :
    Synced (final (methods.listOp name op object)) := by
  have inner : Synced (final (methods.callbackAfter (Object.changeList name (op.change name)) object)) :=
    observer.wrapped synced fun items after stored changed => ListOp.change_stored given stored changed
  rcases methods.listOp_cases name op with once | twice
  · rwa [once]
  · rw [twice]
    -- The inner callback has been made already; the outer one finds nothing new.
    have settled : ∀ after, Synced after → Pending after := fun after shown =>
      observer.revise after after.nlri shown ⟨rfl, rfl, observer.typed after shown⟩
    apply observer.callbackAfter
    · intro error after outcome
      simpa [outcome] using inner
    · intro after outcome
      exact settled after (by simpa [outcome] using inner)

/-- `setattr` has the pure meaning of the assignment and leaves the object synced;
where it raises, nothing has happened. -/
theorem setattr (synced : Synced object) {kwarg : Kwarg} (given : kwarg.Given) :
    match object.nlri.assign kwarg with
    | .ok nlri => ∃ world, methods.setattr kwarg object = .ok () ⟨nlri, world⟩ ∧ Synced ⟨nlri, world⟩
    | .error error => methods.setattr kwarg object = .error error object := by
  cases kwarg with
  | nextHop value => exact observer.setNextHop synced value
  | announce value =>
      obtain ⟨after, done, shown, same⟩ := observer.setAnnounce synced value
      refine ⟨after.world, ?_, ?_⟩
      · rw [Methods.setattr, done, ← same]
      · rwa [← same]
  | other name =>
      by_cases fixed : name.val ∈ Methods.readOnly
      · simp [NLRI.assign, Methods.setattr, fixed]
      · simp only [NLRI.assign, Methods.setattr, if_neg fixed]
        exact ⟨object.world, rfl, synced⟩
  | list name items =>
      cases name with
      | community => exact observer.assignList synced given
      | asSeq => exact observer.assignList synced given
      | asSet => exact observer.assignList synced given

theorem synced_setattr (synced : Synced object) {kwarg : Kwarg} (given : kwarg.Given) :
    Synced (final (methods.setattr kwarg object)) := by
  have outcome := observer.setattr synced given
  cases assigned : object.nlri.assign kwarg with
  | error error =>
      rw [assigned] at outcome
      simpa [outcome] using synced
  | ok nlri =>
      rw [assigned] at outcome
      obtain ⟨world, done, shown⟩ := outcome
      simpa [done] using shown

end Observer

theorem Kwarg.listIn_given {kwargs : List Kwarg} (given : ∀ kwarg ∈ kwargs, kwarg.Given)
    (name : ListName) : ∀ value ∈ Kwarg.listIn kwargs name, name.Given value := by
  unfold Kwarg.listIn
  cases found : kwargs.findSome? (Kwarg.list? name) with
  | none => simp
  | some items =>
      obtain ⟨kwarg, member, selected⟩ := List.exists_of_findSome?_eq_some found
      cases kwarg with
      | list held stored =>
          have holds := given _ member
          simp only [Kwarg.list?] at selected
          split at selected
          · rename_i same
            cases selected
            cases same
            exact holds
          · contradiction
      | nextHop value => contradiction
      | announce value => contradiction
      | other value => contradiction

theorem Methods.new_unparsed (methods : Methods ip ω) (kwargs : List Kwarg) (world : ω) :
    ∃ error, methods.new none kwargs world = .error error world := by
  cases foreign : kwargs.any Kwarg.isOther with
  | true => exact ⟨_, by simp [Methods.new, foreign, Effect.bind_eq]; rfl⟩
  | false =>
  simp only [Methods.new, foreign, Bool.false_eq_true, if_false, Effect.bind_eq]
  cases bgpList communityListCheck (Kwarg.listIn kwargs .community) with
  | error error => exact ⟨_, rfl⟩
  | ok community =>
  cases bgpList asListCheck (Kwarg.listIn kwargs .asSeq) with
  | error error => exact ⟨_, rfl⟩
  | ok asSeq =>
  cases bgpList asListCheck (Kwarg.listIn kwargs .asSet) with
  | error error => exact ⟨_, rfl⟩
  | ok asSet => exact ⟨_, rfl⟩

/-- The constructor hands out a synced object with the attributes of `NLRI.construct`,
or raises before anything was called. -/
theorem Observer.new {methods : Methods ip ω} {Synced Pending : Object ip ω → Prop}
    (observer : Observer methods Synced Pending) {routePrefix : ip.Network} {world : ω}
    (fresh : ∀ nlri : NLRI ip, nlri.WellTyped → nlri.announce = false →
      nlri.routePrefix = routePrefix → Synced ⟨nlri, world⟩)
    {kwargs : List Kwarg} (given : ∀ kwarg ∈ kwargs, kwarg.Given) :
    match NLRI.construct routePrefix kwargs with
    | .ok nlri => ∃ after, methods.new (some routePrefix) kwargs world = .ok nlri after ∧ Synced ⟨nlri, after⟩
    | .error error => methods.new (some routePrefix) kwargs world = .error error world := by
  cases foreign : kwargs.any Kwarg.isOther with
  | true => simp [NLRI.construct, Methods.new, foreign, Effect.bind_eq, except_throw, except_bind_error]
  | false =>
  simp only [NLRI.construct, Methods.new, foreign, Bool.false_eq_true, if_false, Effect.bind_eq]
  cases communityBuilt : bgpList communityListCheck (Kwarg.listIn kwargs .community) with
  | error error => rfl
  | ok community =>
  cases asSeqBuilt : bgpList asListCheck (Kwarg.listIn kwargs .asSeq) with
  | error error => rfl
  | ok asSeq =>
  cases asSetBuilt : bgpList asListCheck (Kwarg.listIn kwargs .asSet) with
  | error error => rfl
  | ok asSet =>
  have start : Synced ⟨⟨false, .self, community, asSeq, asSet, routePrefix⟩, world⟩ :=
    fresh _ ⟨bgpList_forall (fun _ _ => communityListCheck_ok) (Kwarg.listIn_given given .community) communityBuilt,
      asList_forall asSeqBuilt, asList_forall asSetBuilt⟩ rfl rfl
  have hop := observer.setNextHop start ((kwargs.findSome? Kwarg.nextHop?).getD (.str "self".toList))
  simp only [Effect.ofExcept_ok, Effect.bind_eq, Object.during, except_bind_ok]
  cases assigned : (⟨false, .self, community, asSeq, asSet, routePrefix⟩ : NLRI ip).assign
      (.nextHop ((kwargs.findSome? Kwarg.nextHop?).getD (.str "self".toList))) with
  | error error =>
      rw [assigned] at hop
      simp only [hop, except_bind_error]
  | ok nlri =>
      rw [assigned] at hop
      obtain ⟨between, hopDone, hopSynced⟩ := hop
      obtain ⟨after, done, shown, same⟩ := observer.setAnnounce hopSynced
        ((kwargs.findSome? Kwarg.announce?).getD true)
      refine ⟨after.world, ?_, ?_⟩
      · simp only [hopDone, done, same, Effect.get_apply, Effect.pure_apply]
      · rw [← same]
        exact shown

end ActiveBgp.Rib

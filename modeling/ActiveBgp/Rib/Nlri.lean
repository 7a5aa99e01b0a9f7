import ActiveBgp.Rib.Values

namespace ActiveBgp.Rib

open ActiveBgp.Python

/-! # NLRI objects

`rib.NLRI` and its subclass `rib_client.NLRIClient` share every setter and every
list operation; they differ in what announcing and withdrawing does to the
world.  The two methods are therefore a parameter here, and so is the type of
worlds they act on.
-/

/-- The `ipaddress` module.  Networks and addresses are parsed and printed; what
is printed parses back to the same object, and an address prints as a non-empty
text without a slash that is not the word `self`. -/
structure Ipaddress where
  Network : Type
  Address : Type
  [decEqNetwork : DecidableEq Network]
  [decEqAddress : DecidableEq Address]
  /-- `ip_network(text, strict=False)` -/
  network? : Text → Option Network
  /-- `ip_address(value)` -/
  address? : Value → Option Address
  networkAddress : Network → Address
  prefixlen : Network → Nat
  str : Address → Text
  network?_print : ∀ network,
    network? (str (networkAddress network) ++ '/' :: Text.ofNat (prefixlen network)) = some network
  address?_print : ∀ address, address? (.str (str address)) = some address
  str_plain : ∀ address, str address ≠ [] ∧ '/' ∉ str address ∧ str address ≠ "self".toList

attribute [instance] Ipaddress.decEqNetwork Ipaddress.decEqAddress

variable {ip : Ipaddress} {ω : Type}

def Ipaddress.networkText (ip : Ipaddress) (network : ip.Network) : Text :=
  ip.str (ip.networkAddress network) ++ '/' :: Text.ofNat (ip.prefixlen network)

inductive NextHop (ip : Ipaddress) where
  | self
  | address (host : ip.Address)
deriving DecidableEq

def NextHop.text : NextHop ip → Text
  | .self => "self".toList
  | .address host => ip.str host

inductive ListName where
  | community
  | asSeq
  | asSet
deriving DecidableEq, Repr

/-- The `_check` of the class that holds the attribute. -/
def ListName.check : ListName → Value → Except PyError Value
  | .community => communityListCheck
  | .asSeq => asListCheck
  | .asSet => asListCheck

structure NLRI (ip : Ipaddress) where
  announce : Bool
  nextHop : NextHop ip
  community : List Value
  asSeq : List Value
  asSet : List Value
  routePrefix : ip.Network
deriving DecidableEq

def NLRI.list (nlri : NLRI ip) : ListName → List Value
  | .community => nlri.community
  | .asSeq => nlri.asSeq
  | .asSet => nlri.asSet

def NLRI.setList (nlri : NLRI ip) (items : List Value) : ListName → NLRI ip
  | .community => { nlri with community := items }
  | .asSeq => { nlri with asSeq := items }
  | .asSet => { nlri with asSet := items }

/-- The methods that a subclass of `NLRI` overrides. -/
structure Methods (ip : Ipaddress) (ω : Type) where
  doAnnounce : NLRI ip → Effect ω Unit
  doWithdraw : NLRI ip → Effect ω Unit

/-- An NLRI together with the world its methods act on. -/
structure Object (ip : Ipaddress) (ω : Type) where
  nlri : NLRI ip
  world : ω

/-- What an NLRI keeps or looks up under a name of its own.  `setattr` would replace
the state, or the method, that its other methods use. -/
def NLRI.members : List Text :=
  ["_announce".toList, "_callback".toList, "_next_hop".toList, "_community".toList, "_as_seq".toList, "_as_set".toList,
    "_prefix".toList, "_do_announce".toList, "_do_withdraw".toList, "to_dict".toList, "__class__".toList,
    "__dict__".toList, "__weakref__".toList]

/-- The keyword parameters of `NLRI.__init__`. -/
def NLRI.keywords : List Text :=
  ["next_hop".toList, "community".toList, "as_seq".toList, "as_set".toList, "announce".toList]

/-- The parameters of `RIB.add` itself.  A keyword of that name is a `TypeError`
before the method runs, so it never is among its `kwargs`. -/
def RIB.parameters : List Text := ["self".toList, "prefix".toList]

/-- Any further name: under it an NLRI has a property without a setter, or nothing. -/
abbrev Keyword := {name : Text // name ∉ NLRI.members ∧ name ∉ NLRI.keywords ++ RIB.parameters}

/-- The keyword arguments of `RIB.add`: those of `NLRI.__init__`, or others. -/
inductive Kwarg where
  | nextHop (value : Value)
  | list (name : ListName) (items : List Value)
  | announce (value : Bool)
  | other (name : Keyword)
deriving DecidableEq, Repr

inductive ListOp where
  | setItem (index : Int) (value : Value)
  | append (value : Value)
  | insert (index : Int) (value : Value)
  | pop (index : Int)
  | remove (value : Value)
  | prepend (value : Value)
deriving DecidableEq, Repr

namespace Object

def update (change : NLRI ip → NLRI ip) : Effect (Object ip ω) Unit :=
  modify fun object => { object with nlri := change object.nlri }

/-- Change a list in place, without a callback. -/
def changeList (name : ListName) (change : List Value → Except PyError (List Value)) :
    Effect (Object ip ω) Unit := do
  let object ← get
  let items ← Effect.ofExcept (change (object.nlri.list name))
  update fun nlri => nlri.setList items name

/-- Run the body of a method on an object that is not yet stored anywhere. -/
def during {α : Type} (nlri : NLRI ip) (body : Effect (Object ip ω) α) : Effect ω α := fun world =>
  match body ⟨nlri, world⟩ with
  | .ok value object => .ok value object.world
  | .error error object => .error error object.world

end Object

namespace Methods

variable (methods : Methods ip ω)

/-- `self._callback()`, which is `self._do_announce()`. -/
def callback : Effect (Object ip ω) Unit := do
  let object ← get
  Effect.within Object.world (fun world object => { object with world }) (methods.doAnnounce object.nlri)

def withdrawal : Effect (Object ip ω) Unit := do
  let object ← get
  Effect.within Object.world (fun world object => { object with world }) (methods.doWithdraw object.nlri)

/-- The decorator `callback_after`: nothing is called when `change` raises. -/
def callbackAfter (change : Effect (Object ip ω) Unit) : Effect (Object ip ω) Unit := do
  change
  methods.callback

def setAnnounce (value : Bool) : Effect (Object ip ω) Unit := do
  let object ← get
  if object.nlri.announce ≠ value then
    Object.update fun nlri => { nlri with announce := value }
    if value = false then methods.withdrawal else methods.callback

def setNextHop (value : Value) : Effect (Object ip ω) Unit := do
  let object ← get
  if value = .str "self".toList then
    if object.nlri.nextHop ≠ .self then
      Object.update fun nlri => { nlri with nextHop := .self }
      methods.callback
  else
    match ip.address? value with
    | none => throw (.valueError "does not appear to be an IPv4 or IPv6 address".toList)
    | some address =>
        if object.nlri.nextHop ≠ .address address then
          Object.update fun nlri => { nlri with nextHop := .address address }
          methods.callback

/-- The three list setters: a new list object replaces the old one. -/
def assignList (name : ListName) (items : List Value) : Effect (Object ip ω) Unit :=
  methods.callbackAfter do
    let stored ← Effect.ofExcept (bgpList name.check items)
    Object.update fun nlri => nlri.setList stored name

def setAsSeq (items : List Value) : Effect (Object ip ω) Unit := methods.assignList .asSeq items

def setAsSet (items : List Value) : Effect (Object ip ω) Unit := methods.assignList .asSet items

def setCommunity (items : List Value) : Effect (Object ip ω) Unit := methods.assignList .community items

/-- `BGPList.insert` -/
def insertItem (name : ListName) (index : Int) (value : Value) : Effect (Object ip ω) Unit :=
  methods.callbackAfter (Object.changeList name fun items => do
    let value ← name.check value
    return insertAt items index value)

/-- The wrapped operations of `BGPList`.  `prepend` goes through the wrapped
`insert`, so it calls back twice. -/
def listOp (name : ListName) : ListOp → Effect (Object ip ω) Unit
  | .setItem index value => methods.callbackAfter (Object.changeList name fun items => do
      let value ← name.check value
      orRaise .indexError (setItem? items index value))
  | .append value => methods.callbackAfter (Object.changeList name fun items => do
      let value ← name.check value
      return items ++ [value])
  | .insert index value => methods.insertItem name index value
  | .pop index => methods.callbackAfter (Object.changeList name fun items =>
      orRaise .indexError (pop? items index))
  | .remove value => methods.callbackAfter (Object.changeList name fun items =>
      orRaise (.valueError "list.remove(x): x not in list".toList) (remove? items value))
  | .prepend value => methods.callbackAfter (methods.insertItem name 0 value)

/-- The properties of `NLRI` that have no setter. -/
def readOnly : List Text := ["network".toList, "masklen".toList, "path".toList]

/-- `setattr(self, kwarg, value)`.  A further name becomes an attribute that nothing reads. -/
def setattr : Kwarg → Effect (Object ip ω) Unit
  | .nextHop value => methods.setNextHop value
  | .list .asSeq items => methods.setAsSeq items
  | .list .asSet items => methods.setAsSet items
  | .list .community items => methods.setCommunity items
  | .announce value => methods.setAnnounce value
  | .other name => if name.val ∈ readOnly then throw .attributeError else pure ()

/-- `self.prefix = prefix`, where `parsed` is what `ip_network` makes of the argument. -/
def setPrefix (parsed : Option ip.Network) : Effect (Object ip ω) Unit := do
  let object ← get
  match parsed with
  | none => throw (.valueError "does not appear to be an IPv4 or IPv6 network".toList)
  | some network =>
      if network = object.nlri.routePrefix then return
      if object.nlri.announce then
        methods.setAnnounce false
        Object.update fun nlri => { nlri with routePrefix := network }
        methods.setAnnounce true
      else
        Object.update fun nlri => { nlri with routePrefix := network }

end Methods

def Kwarg.nextHop? : Kwarg → Option Value
  | .nextHop value => some value
  | _ => none

def Kwarg.list? (name : ListName) : Kwarg → Option (List Value)
  | .list given items => if given = name then some items else none
  | _ => none

def Kwarg.announce? : Kwarg → Option Bool
  | .announce value => some value
  | _ => none

/-- The argument that `NLRI.__init__` receives for a list parameter. -/
def Kwarg.listIn (kwargs : List Kwarg) (name : ListName) : List Value :=
  (kwargs.findSome? (Kwarg.list? name)).getD []

def Kwarg.isOther : Kwarg → Bool
  | .other _ => true
  | _ => false

/-- `NLRI(prefix, **kwargs)`, where `parsed` is what `ip_network` makes of `prefix`.
Nothing is announced before the last assignment. -/
def Methods.new (methods : Methods ip ω) (parsed : Option ip.Network) (kwargs : List Kwarg) :
    Effect ω (NLRI ip) := do
  if kwargs.any Kwarg.isOther then throw .typeError
  let community ← Effect.ofExcept (bgpList communityListCheck (Kwarg.listIn kwargs .community))
  let asSeq ← Effect.ofExcept (bgpList asListCheck (Kwarg.listIn kwargs .asSeq))
  let asSet ← Effect.ofExcept (bgpList asListCheck (Kwarg.listIn kwargs .asSet))
  match parsed with
  | none => throw (.valueError "does not appear to be an IPv4 or IPv6 network".toList)
  | some routePrefix =>
      Object.during { announce := false, nextHop := .self, community, asSeq, asSet, routePrefix } do
        methods.setNextHop ((kwargs.findSome? Kwarg.nextHop?).getD (.str "self".toList))
        methods.setAnnounce ((kwargs.findSome? Kwarg.announce?).getD true)
        return (← get).nlri

end ActiveBgp.Rib

import ActiveBgp.Rib.Mirror

namespace ActiveBgp.Server

open ActiveBgp.Python ActiveBgp.Rib

variable {ip : Ipaddress}

/-- `NLRI.to_dict` -/
structure Snapshot where
  routePrefix : Text
  nextHop : Text
  asSeq : List Value
  asSet : List Value
  community : List Value
  announce : Bool
deriving DecidableEq, Repr

def toDict (nlri : NLRI ip) : Snapshot where
  routePrefix := ip.networkText nlri.routePrefix
  nextHop := nlri.nextHop.text
  asSeq := nlri.asSeq
  asSet := nlri.asSet
  community := nlri.community
  announce := nlri.announce

/-- `RIB.get`; the argument is a text or `None`. -/
def ribGet (state : State ip) : Option Text → Option (List (Text × Snapshot))
  | none => some (state.nlri.entries.map fun (network, nlri) => (ip.networkText network, toDict nlri))
  | some text =>
      (ip.network? text).map fun network =>
        (state.nlri.get? network).toList.map fun nlri => (ip.networkText network, toDict nlri)

inductive HttpMethod where
  | get
  | head
  | options
  | post
  | put
  | delete
  | other (name : Text)
deriving DecidableEq, Repr

/-- The key of a query argument.  `nlri_add` would pass the names of `NLRI.members`
on to `setattr` as well. -/
abbrev QueryKey := {key : Text // key ∉ NLRI.members}

namespace QueryKey

def nextHop : QueryKey := ⟨"next_hop".toList, by decide⟩

def announce : QueryKey := ⟨"announce".toList, by decide⟩

def list : ListName → QueryKey
  | .community => ⟨"community".toList, by decide⟩
  | .asSeq => ⟨"as_seq".toList, by decide⟩
  | .asSet => ⟨"as_set".toList, by decide⟩

end QueryKey

structure Request where
  method : HttpMethod
  path : Text
  args : List (QueryKey × Text)
deriving DecidableEq, Repr

inductive Body where
  | prefixes (found : List (Text × Snapshot))
  | error (message : Text)
  | page
  | empty
deriving DecidableEq, Repr

structure Response where
  status : Nat
  body : Body
deriving DecidableEq, Repr

inductive Rule where
  | root
  | network (text : Text)
deriving DecidableEq, Repr

/-- The converter `<int:mask>`: one or more decimal digits. -/
def intConverter (text : Text) : Option Nat :=
  if text.all fun char => (Text.digitValue char).isSome then Text.digitsValue 0 false text else none

/-- The rule that a path matches, with the `prefix` that the view function formats. -/
def matchRule (path : Text) : Option Rule :=
  match path.splitOn '/' with
  | [[], []] => some .root
  | [[], network, mask] =>
      if network = [] then none
      else (intConverter mask).map fun length => .network (network ++ '/' :: Text.ofNat length)
  | _ => none

def boolify (val : Text) : Except PyError Bool :=
  let val := val.map Char.toLower
  if val = "false".toList ∨ val = "0".toList then .ok false
  else if val = "true".toList ∨ val = "1".toList then .ok true
  else .error (.valueError ("Unknown bool value ".toList ++ val))

/-- One round of the loop in `nlri_add`; a list argument without items is skipped.
A parameter of `RIB.add` is left to the call. -/
def queryItem (key : QueryKey) (val : Text) : Except PyError (Option Kwarg) :=
  let listItem (name : ListName) : Option Kwarg :=
    let val := val.splitOn ','
    if val = [[]] then none else some (.list name (val.map .str))
  if key = .list .asSeq then .ok (listItem .asSeq)
  else if key = .list .asSet then .ok (listItem .asSet)
  else if key = .list .community then .ok (listItem .community)
  else if key = .announce then (boolify val).map fun value => some (.announce value)
  else if key = .nextHop then .ok (some (.nextHop (.str val)))
  else if named : key.val ∈ NLRI.keywords ++ RIB.parameters then .ok none
  else .ok (some (.other ⟨key.val, key.property, named⟩))

def queryOf (args : List (QueryKey × Text)) : Except PyError (List Kwarg) :=
  (args.mapM fun (key, val) => queryItem key val).map (List.filterMap id)

/-- `request.args`: only the first value of a repeated key is seen. -/
def Request.items (request : Request) : List (QueryKey × Text) :=
  (request.args.foldl Dict.setDefault Dict.empty).entries

def nlriGet (prefixText : Option Text) (state : State ip) : Response :=
  ⟨200, .prefixes ((ribGet state prefixText).getD [])⟩

/-- `rib.add(prefix, **query)`, where Python refuses a second value for a parameter. -/
def ribAdd (text : Text) (items : List (QueryKey × Text)) (query : List Kwarg) : Effect (State ip) Unit :=
  if items.any fun item => item.1.val ∈ RIB.parameters then throw .typeError else RIB.add text query

/-- `nlri_add`.  A failed `boolify` is outside its `try`. -/
def nlriAdd (text : Text) (items : List (QueryKey × Text)) : Effect (State ip) Response := do
  let query ← Effect.ofExcept (queryOf items)
  match ← Effect.attempt (ribAdd text items query) with
  | .ok _ => return nlriGet (some text) (← get)
  | .error error => return ⟨400, .error error.message⟩

def nlriDel (text : Text) : Effect (State ip) Response := do
  RIB.remove text
  return nlriGet (some text) (← get)

/-- Flask adds `HEAD` and `OPTIONS` to a rule with `GET`; their answers have no body. -/
def view (request : Request) : Effect (State ip) Response :=
  match matchRule request.path with
  | none => return ⟨404, .page⟩
  | some rule =>
      match request.method, rule with
      | .get, .root => return nlriGet none (← get)
      | .get, .network text => return nlriGet (some text) (← get)
      | .head, _ => return ⟨200, .empty⟩
      | .options, _ => return ⟨200, .empty⟩
      | .post, .network text => nlriAdd text request.items
      | .put, .network text => nlriAdd text request.items
      | .delete, .network text => nlriDel text
      | _, _ => return ⟨405, .page⟩

/-- The server answers an exception that leaves the view function with status 500. -/
def handle (request : Request) (state : State ip) : Response × State ip :=
  match view request state with
  | .ok response after => (response, after)
  | .error _ after => (⟨500, .page⟩, after)

end ActiveBgp.Server

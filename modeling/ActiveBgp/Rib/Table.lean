import ActiveBgp.Rib.Observer
import ActiveBgp.Data.Replica

namespace ActiveBgp.Rib

open ActiveBgp.Python ActiveBgp.Data

variable {ip : Ipaddress}

/-! # The RIB and the lines it prints

`rib.NLRI` prints one line for ExaBGP whenever it announces or withdraws.  A line
is kept here as the parts that `__str__` puts together; `Command.text` is the
text that is printed.
-/

structure Route (ip : Ipaddress) where
  routePrefix : ip.Network
  nextHop : NextHop ip
  community : List Text
  asSeq : List Int
  asSet : List Int
deriving DecidableEq

/-- An item of `' '.join(...)`. -/
def Value.joined : Value → Except PyError Text
  | .str text => .ok text
  | _ => .error .typeError

/-- The attributes that `NLRI.__str__` prints, or the exception it raises. -/
def NLRI.route (nlri : NLRI ip) : Except PyError (Route ip) := do
  let community ← nlri.community.mapM Value.joined
  let asSeq ← nlri.asSeq.mapM Value.toInt
  let asSet ← nlri.asSet.mapM Value.toInt
  return { routePrefix := nlri.routePrefix, nextHop := nlri.nextHop, community, asSeq, asSet }

/-- `str(path).replace(',', '')`, where a non-empty AS set is a list inside the path. -/
def Route.pathText (route : Route ip) : Text :=
  let numbers (asns : List Int) := asns.map Text.ofInt
  let nested := if route.asSet = [] then []
    else [('[' :: " ".toList.intercalate (numbers route.asSet)) ++ "]".toList]
  ('[' :: " ".toList.intercalate (numbers route.asSeq ++ nested)) ++ "]".toList

/-- `NLRI.__str__` -/
def Route.text (route : Route ip) : Text :=
  let community := if route.community = [] then []
    else ["community [ ".toList ++ " ".toList.intercalate route.community ++ " ]".toList]
  let path := if route.asSeq = [] ∧ route.asSet = [] then []
    else ["as-path ".toList ++ route.pathText]
  " ".toList.intercalate
    (("route ".toList ++ ip.networkText route.routePrefix ++ " next-hop ".toList ++ route.nextHop.text) ::
      community ++ path)

inductive Command (ip : Ipaddress) where
  | announce (route : Route ip)
  | withdraw (route : Route ip)
deriving DecidableEq

def Command.text : Command ip → Text
  | .announce route => "announce ".toList ++ route.text
  | .withdraw route => "withdraw ".toList ++ route.text

/-- What a line does to the table of the BGP speaker that reads it. -/
def Command.update : Command ip → Update ip.Network (Route ip)
  | .announce route => .assign route.routePrefix route
  | .withdraw route => .delete route.routePrefix

/-- The table of a BGP speaker that has read the lines in order. -/
def peerTable (output : List (Command ip)) : ip.Network → Option (Route ip) :=
  replay (output.map Command.update)

def fprint (command : Command ip) : Effect (List (Command ip)) Unit :=
  modify fun output => output ++ [command]

/-- `NLRI._do_announce` and `NLRI._do_withdraw` -/
def printing (ip : Ipaddress) : Methods ip (List (Command ip)) where
  doAnnounce nlri := do
    if nlri.announce then
      let route ← Effect.ofExcept nlri.route
      fprint (.announce route)
  doWithdraw nlri := do
    if ¬ nlri.announce then
      let route ← Effect.ofExcept nlri.route
      fprint (.withdraw route)

/-- A RIB, the lines printed so far, and the objects that were removed from the
RIB but not finalised yet: an NLRI refers to itself through its callback, so it
outlives its removal. -/
structure State (ip : Ipaddress) where
  nlri : Dict ip.Network (NLRI ip)
  output : List (Command ip)
  detached : List (NLRI ip)

def State.empty (ip : Ipaddress) : State ip := ⟨.empty, [], []⟩

namespace RIB

/-- A method call on `self.nlri[network]`. -/
def onEntry (network : ip.Network) (call : Effect (Object ip (List (Command ip))) Unit) :
    Effect (State ip) Unit := fun state =>
  match state.nlri.get? network with
  | none => .error .keyError state
  | some nlri =>
      match call ⟨nlri, state.output⟩ with
      | .ok _ object => .ok () { state with nlri := state.nlri.set network object.nlri, output := object.world }
      | .error error object =>
          .error error { state with nlri := state.nlri.set network object.nlri, output := object.world }

/-- The update branch of `RIB.add`: the arguments are applied, and announced, one at a time. -/
def setattrs (network : ip.Network) : List Kwarg → Effect (State ip) Unit
  | [] => pure ()
  | kwarg :: rest => do
      onEntry network ((printing ip).setattr kwarg)
      setattrs network rest

def add (text : Text) (kwargs : List Kwarg) : Effect (State ip) Unit := do
  match ip.network? text with
  | none => throw (.valueError "does not appear to be an IPv4 or IPv6 network".toList)
  | some network =>
      let state ← get
      if network ∈ state.nlri.keys then
        setattrs network kwargs
      else
        let nlri ← Effect.within State.output (fun output state => { state with output })
          ((printing ip).new (some network) kwargs)
        modify fun state => { state with nlri := state.nlri.set nlri.routePrefix nlri }

def remove (text : Text) : Effect (State ip) Unit := do
  match ip.network? text with
  | none => throw (.valueError "does not appear to be an IPv4 or IPv6 network".toList)
  | some network =>
      let state ← get
      if network ∈ state.nlri.keys then
        onEntry network ((printing ip).setAnnounce false)
        modify fun state => { state with
          nlri := state.nlri.erase network
          detached := state.detached ++ (state.nlri.get? network).toList }

/-- `NLRI.__del__` of a removed entry.  Exceptions in a finaliser are ignored. -/
def finalise (index : Nat) : Effect (State ip) Unit := fun state =>
  match state.detached[index]? with
  | none => .ok () state
  | some nlri => .ok () { state with
      output := (final ((printing ip).setAnnounce false ⟨nlri, state.output⟩)).world
      detached := state.detached.eraseIdx index }

end RIB

def NLRI.published (nlri : NLRI ip) : Option (Route ip) :=
  if nlri.announce then nlri.route.toOption else none

theorem NLRI.WellTyped.route {nlri : NLRI ip} (typed : nlri.WellTyped) :
    ∃ route, nlri.route = .ok route ∧ route.routePrefix = nlri.routePrefix := by
  have texts : ∃ community, nlri.community.mapM Value.joined = .ok community :=
    mapM_ok_iff.mpr fun value member => by
      obtain ⟨text, rfl, _⟩ := typed.community value member
      exact ⟨text, rfl⟩
  obtain ⟨community, communityDone⟩ := texts
  have numbers {items : List Value} (asns : ∀ value ∈ items, value.IsAsn) :
      ∃ values, items.mapM Value.toInt = .ok values :=
    mapM_ok_iff.mpr fun value member => by
      obtain ⟨asn, rfl, _⟩ := asns value member
      exact ⟨asn, rfl⟩
  obtain ⟨asSeq, asSeqDone⟩ := numbers typed.asSeq
  obtain ⟨asSet, asSetDone⟩ := numbers typed.asSet
  exact ⟨_, by simp only [NLRI.route, communityDone, asSeqDone, asSetDone, bind, Except.bind, pure,
    Except.pure]; rfl, rfl⟩

theorem NLRI.route_prefix {nlri : NLRI ip} {route : Route ip} (rendered : nlri.route = .ok route) :
    route.routePrefix = nlri.routePrefix := by
  obtain ⟨_, _, rendered⟩ := except_bind_eq_ok.mp rendered
  obtain ⟨_, _, rendered⟩ := except_bind_eq_ok.mp rendered
  obtain ⟨_, _, rendered⟩ := except_bind_eq_ok.mp rendered
  cases rendered
  rfl

theorem NLRI.published_isSome {nlri : NLRI ip} (typed : nlri.WellTyped) :
    nlri.published.isSome = nlri.announce := by
  obtain ⟨route, done, _⟩ := typed.route
  cases announced : nlri.announce <;> simp [NLRI.published, announced, done, Except.toOption]

theorem peerTable_announce (output : List (Command ip)) (route : Route ip) (network : ip.Network) :
    peerTable (output ++ [.announce route]) network =
      if network = route.routePrefix then some route else peerTable output network := by
  simp only [peerTable, List.map_append, List.map_cons, List.map_nil, Command.update]
  exact replay_assign _ _ _ _

theorem peerTable_withdraw (output : List (Command ip)) (route : Route ip) (network : ip.Network) :
    peerTable (output ++ [.withdraw route]) network =
      if network = route.routePrefix then none else peerTable output network := by
  simp only [peerTable, List.map_append, List.map_cons, List.map_nil, Command.update]
  exact replay_delete _ _ _

theorem printing_announce {nlri : NLRI ip} {route : Route ip} (announced : nlri.announce = true)
    (done : nlri.route = .ok route) (output : List (Command ip)) :
    (printing ip).doAnnounce nlri output = .ok () (output ++ [.announce route]) := by
  simp [printing, announced, Effect.bind_eq, done, fprint]

theorem printing_quiet {nlri : NLRI ip} (announced : nlri.announce = false)
    (output : List (Command ip)) : (printing ip).doAnnounce nlri output = .ok () output := by
  simp [printing, announced]

theorem printing_withdraw {nlri : NLRI ip} {route : Route ip} (announced : nlri.announce = false)
    (done : nlri.route = .ok route) (output : List (Command ip)) :
    (printing ip).doWithdraw nlri output = .ok () (output ++ [.withdraw route]) := by
  simp [printing, announced, Effect.bind_eq, done, fprint]

end ActiveBgp.Rib

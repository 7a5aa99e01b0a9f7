import ActiveBgp.Bird.FilterRun
import ActiveBgp.Bird.OldSessions

namespace ActiveBgp.Bird.Filter

open ActiveBgp.Python ActiveBgp.Bird.Path ActiveBgp.Bird.SetAttribute

section Control

/-- `struct bgp_proto`, with the name of the protocol. -/
structure Proto where
  name : Text
  isInternal : Bool
  rsClient : Bool
  rrClient : Bool
  localAs : UInt32
  remoteId : UInt32
  rrClusterId : UInt32
  sourceAddr : IpAddr
  /-- The neighbor, with its interface. -/
  neigh : Option (Option Text)
  nextHopSelf : Bool
  nextHopKeep : Bool
  interpretCommunities : Bool
  defaultLocalPref : UInt32

/-- `struct rta`, without the attributes. -/
structure Rta where
  /-- The session that the route is from. -/
  newBgp : Option Proto
  externalOspf : Bool
  /-- `RTD_ROUTER` -/
  router : Bool
  gw : IpAddr
  iface : Option Text

inductive Control where
  | rejected
  /-- The attribute with the path is not there. -/
  | broken
  | ready (state : State)

/-- `BGP_COMM_NO_EXPORT`, `BGP_COMM_NO_ADVERTISE` and `BGP_COMM_NO_EXPORT_SUBCONFED` -/
def noExport : Community := 0xFFFFFF01

def noAdvertise : Community := 0xFFFFFF02

def noExportSubconfed : Community := 0xFFFFFF03

def State.attach (code : Attribute) (data : code.type.Data) (state : State) : State := state.eaSet true ⟨code, some data⟩

/-- The new attributes come in one block, in their order. -/
def bgpCreateAttrs (isLinkLocal : IpAddr → Bool) (p : Proto) (rta : Rta) (state : State) : State :=
  let origin : UInt32 := if rta.externalOspf then 2 else 0
  let path := if p.isInternal then [] else asPathSequence :: 1 :: Data.BigEndian.digits 4 p.localAs.toNat
  let sourceAddr := p.nextHopSelf || !rta.router || rta.gw == 0 || isLinkLocal rta.gw ||
    (!p.isInternal && !p.nextHopKeep && p.neigh != some rta.iface)
  { state with tmpAttrs := ⟨.bgpOrigin, some origin⟩ :: ⟨.bgpPath, some path⟩ ::
      ⟨.bgpNextHop, some (if sourceAddr then p.sourceAddr else rta.gw)⟩ :: ⟨.bgpLocalPref, some p.defaultLocalPref⟩ ::
      state.tmpAttrs }

def bgpClusterListLoopy (p : Proto) (eattrs : List Eattr) : Bool :=
  match eaFind .bgpClusterList eattrs with
  | some list => p.rrClient && intSetContains (some list) p.rrClusterId
  | none => false

def bgpPathPrepend (as : UInt32) (state : State) : Option State :=
  (eaFind .bgpPath state.rte.eattrs).map fun path => state.attach .bgpPath (asPathPrepend path (asn as))

/-- The list is that of the route, also where one is attached already. -/
def bgpClusterListPrepend (cid : UInt32) (state : State) : State :=
  state.attach .bgpClusterList ((intSetPrepend (eaFind .bgpClusterList state.rte.eattrs) cid).getD [])

/-- The handling of a route that is reflected. -/
def reflect (p src : Proto) (state : State) : State :=
  let state := match eaFind .bgpOriginatorId state.rte.eattrs with
    | none => state.attach .bgpOriginatorId src.remoteId
    | some _ => state
  let state := bgpClusterListPrepend (if src.rrClient then src.rrClusterId else p.rrClusterId) state
  if src.rrClient ∧ p.rrClient ∧ src.rrClusterId ≠ p.rrClusterId then bgpClusterListPrepend p.rrClusterId state else state

/-- The `MULTI_EXIT_DISC` of the neighbor is not for others. -/
def clearMed (state : State) : State :=
  match eaFind .bgpMed state.rte.eattrs with
  | some _ => state.attach .bgpMed (0 : UInt32)
  | none => state

def bgpUpdateAttrs (p src : Proto) (rta : Rta) (state : State) (rr : Bool) : Control :=
  let external := if p.isInternal = false ∧ p.rsClient = false then
      (bgpPathPrepend p.localAs state).map clearMed
    else some state
  match external with
  | none => .broken
  | some state =>
      let keep := (eaFind .bgpNextHop state.rte.eattrs).any fun (nextHop : IpAddr) =>
        !p.nextHopSelf && (p.nextHopKeep || (p.isInternal && nextHop != 0) || p.neigh == some rta.iface)
      let state := if keep then state else state.attach .bgpNextHop p.sourceAddr
      .ready (if rr then reflect p src state else state)

def bgpCommunityFilter (p : Proto) (state : State) : Bool :=
  match eaFind .bgpCommunity state.rte.eattrs with
  | some d => intSetContains (some d) noAdvertise ||
      (!p.isInternal && (intSetContains (some d) noExport || intSetContains (some d) noExportSubconfed))
  | none => false

def bgpImportControl (isLinkLocal : IpAddr → Bool) (p : Proto) (rta : Rta) (state : State) : Control :=
  match rta.newBgp with
  | none => .ready (bgpCreateAttrs isLinkLocal p rta state)
  | some newBgp =>
      if p.name = newBgp.name then .rejected
      else if bgpClusterListLoopy p state.rte.eattrs then .rejected
      else if p.interpretCommunities ∧ bgpCommunityFilter p state then .rejected
      else if p.localAs = newBgp.localAs ∧ p.isInternal ∧ newBgp.isInternal then
        if p.rrClient ∨ newBgp.rrClient then bgpUpdateAttrs p newBgp rta state true else .rejected
      else bgpUpdateAttrs p newBgp rta state false

end Control

section Attributes

variable {code other : Attribute} {state : State}

theorem eaFind_cons_self (data : Option code.type.Data) (rest : List Eattr) : eaFind code (⟨code, data⟩ :: rest) = data := by
  rw [eaFind, dif_pos rfl]

theorem eaFind_cons_of_ne (different : other ≠ code) (data : Option other.type.Data) (rest : List Eattr) :
    eaFind code (⟨other, data⟩ :: rest) = eaFind code rest := by
  rw [eaFind, dif_neg different]

theorem eaGet_attach (data : code.type.Data) : (state.attach code data).eaGet true code = .ofData code.type data := by
  simp [State.attach, State.eaSet, State.eaGet, eaFind_cons_self]

theorem eaGet_attach_of_ne (different : other ≠ code) (data : other.type.Data) :
    (state.attach other data).eaGet true code = state.eaGet true code := by
  simp [State.attach, State.eaSet, State.eaGet, eaFind_cons_of_ne different]

end Attributes

section Sessions

variable {isLinkLocal : IpAddr → Bool} {p : Proto} {rta : Rta} {state after : State} {path : AsPath 4}

/-- The path that a route comes with; there is none outside of BGP. -/
def Carries (rta : Rta) (state : State) (path : AsPath 4) : Prop :=
  if rta.newBgp.isSome then eaFind .bgpPath state.rte.eattrs = some (encode path) else path = []

/-- What an external session changes before its filter. -/
structure Handed (p : Proto) (state after : State) (path : AsPath 4) : Prop where
  rte : after.rte = state.rte
  path : after.eaGet true .bgpPath = .path (encode (prepend (asn p.localAs) path))
  communities : after.eaGet true .bgpCommunity = state.eaGet true .bgpCommunity

theorem Handed.attach (handed : Handed p state after path) {code : Attribute} (notPath : code ≠ .bgpPath)
    (notCommunity : code ≠ .bgpCommunity) (data : code.type.Data) : Handed p state (after.attach code data) path where
  rte := handed.rte
  path := (eaGet_attach_of_ne notPath data).trans handed.path
  communities := (eaGet_attach_of_ne notCommunity data).trans handed.communities

theorem handed_bgpCreateAttrs (isLinkLocal : IpAddr → Bool) (external : p.isInternal = false) (rta : Rta) (state : State) :
    Handed p state (bgpCreateAttrs isLinkLocal p rta state) [] where
  rte := rfl
  path := by
    simp [bgpCreateAttrs, State.eaGet, external, eaFind_cons_self, eaFind_cons_of_ne]
    rfl
  communities := by simp [bgpCreateAttrs, State.eaGet, eaFind_cons_of_ne]

theorem handed_bgpUpdateAttrs (external : p.isInternal = false) (notServer : p.rsClient = false) (src : Proto) (rta : Rta)
    (found : eaFind .bgpPath state.rte.eattrs = some (encode path)) :
    ∃ after, bgpUpdateAttrs p src rta state false = .ready after ∧ Handed p state after path := by
  have start : Handed p state (state.attach .bgpPath (asPathPrepend (encode path) (asn p.localAs))) path :=
    ⟨rfl, (@eaGet_attach .bgpPath state _).trans (congrArg Value.path (asPathPrepend_encode path (asn p.localAs))),
      eaGet_attach_of_ne (by decide) _⟩
  have prepended : bgpPathPrepend p.localAs state = some (state.attach .bgpPath (asPathPrepend (encode path) (asn p.localAs))) := by
    rw [bgpPathPrepend, found]
    rfl
  simp only [bgpUpdateAttrs, if_pos (And.intro external notServer), prepended, Option.map_some]
  generalize state.attach .bgpPath (asPathPrepend (encode path) (asn p.localAs)) = middle at start
  refine ⟨_, rfl, ?_⟩
  have second : Handed p state (clearMed middle) path := by
    unfold clearMed
    split
    · exact start.attach (by decide) (by decide) _
    · exact start
  rw [if_neg Bool.false_ne_true]
  generalize clearMed middle = last at second
  split
  · exact second
  · exact second.attach (by decide) (by decide) _

/-- A session to another system puts its own number in front, and leaves the communities. -/
theorem handed_bgpImportControl (external : p.isInternal = false) (notServer : p.rsClient = false)
    (carries : Carries rta state path) (ready : bgpImportControl isLinkLocal p rta state = .ready after) :
    Handed p state after path := by
  unfold bgpImportControl at ready
  unfold Carries at carries
  cases from_ : rta.newBgp with
  | none =>
      simp only [from_, Option.isSome_none, Bool.false_eq_true, if_false] at ready carries
      cases ready
      subst carries
      exact handed_bgpCreateAttrs isLinkLocal external rta state
  | some newBgp =>
      obtain ⟨last, updated, handed⟩ := handed_bgpUpdateAttrs external notServer newBgp rta (by simpa [from_] using carries)
      simp only [from_, external, Bool.false_eq_true, false_and, and_false, if_false, updated] at ready
      split at ready
      · cases ready
      · split at ready
        · cases ready
        · split at ready
          · cases ready
          · cases ready
            exact handed

end Sessions

end ActiveBgp.Bird.Filter

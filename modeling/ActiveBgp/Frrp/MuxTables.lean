import ActiveBgp.Frrp.Muxes
import ActiveBgp.Python.Lines

namespace ActiveBgp.FrrpPeering

open ActiveBgp.Python

section Setup

def Mux.addPeer (mux : Mux) (peer : MuxPeer) (isTransit : Bool) : Mux :=
  if isTransit then { mux with transits := mux.transits ++ [peer] } else { mux with peers := mux.peers ++ [peer] }

/-- `int(text)` -/
def parseInt (text : Text) : Except PyError Int :=
  orRaise (.valueError "invalid literal for int() with base 10".toList) (Text.toInt? text)

/-- The mux of a line of `port_to_mux.csv`. -/
def parseMux (line : Text) : Except PyError Mux := do
  let row := (Text.rstrip line).splitOn ','
  let muxName ← orRaise .indexError row[0]?
  let port ← parseInt (← orRaise .indexError row[1]?)
  let ipV4 ← orRaise .indexError row[2]?
  let ipV6 ← orRaise .indexError row[3]?
  return { name := muxName, port := port, ipV4 := ipV4, ipV6 := ipV6 }

def addMux (muxData : Dict Text Mux) (mux : Mux) : Dict Text Mux := muxData.set mux.name mux

/-- The peer of a row of `peering-report-bgppeertable.csv`; `lower` is `str.lower`. -/
def parsePeer (lower : Text → Text) (row : List Text) : Except PyError MuxPeer := do
  let peerName ← orRaise .indexError row[1]?
  let peerMuxName ← orRaise .indexError row[0]?
  let peerAsn ← parseInt (← orRaise .indexError row[2]?)
  let peerSessId ← parseInt (← orRaise .indexError row[8]?)
  let peerIpVersion ← orRaise .indexError row[4]?
  let peerIsTransit ← orRaise .indexError row[6]?
  let peerIsRouteServer ← orRaise .indexError row[7]?
  return {
    name := peerName, muxName := peerMuxName, asn := peerAsn, sessId := peerSessId, ipVersion := lower peerIpVersion
    isTransit := peerIsTransit = "✔".toList, isRouteServer := peerIsRouteServer = "✔".toList }

def addPeer (muxData : Dict Text Mux) (peer : MuxPeer) : Except PyError (Dict Text Mux) := do
  let mux ← orRaise .keyError (muxData.get? peer.muxName)
  return muxData.set peer.muxName (mux.addPeer peer peer.isTransit)

/-- Both tables have a line of titles. -/
def loadMuxes (portToMux : Text) : Except PyError (Dict Text Mux) :=
  ((Text.readlines portToMux).drop 1).foldlM (fun muxData line => do
    let mux ← parseMux line
    return addMux muxData mux) .empty

def loadPeers (lower : Text → Text) (peerTable : Text) (muxData : Dict Text Mux) : Except PyError (Dict Text Mux) :=
  ((Text.csvReader peerTable).drop 1).foldlM (fun muxData line => do
    let peer ← parsePeer lower line
    addPeer muxData peer) muxData

def setupMuxData (lower : Text → Text) (portToMux peerTable : Text) : Except PyError (Dict Text Mux) := do
  let muxData ← loadMuxes portToMux
  loadPeers lower peerTable muxData

end Setup

section Tables

/-- The mux with the peers that the rows list for it. -/
def Mux.joined (mux : Mux) (rows : List MuxPeer) : Mux :=
  { mux with
    transits := mux.transits ++ rows.filter fun row => row.muxName = mux.name ∧ row.isTransit = true
    peers := mux.peers ++ rows.filter fun row => row.muxName = mux.name ∧ row.isTransit = false }

/-- The names lead to the muxes of the table, each with the peers of the rows. -/
structure Joins (muxes : List Mux) (rows : List MuxPeer) (muxData : Dict Text Mux) : Prop where
  names : muxData.keys = muxes.map Mux.name
  found : ∀ mux ∈ muxes, muxData.get? mux.name = some (mux.joined rows)

variable {muxes : List Mux} {rows : List MuxPeer} {muxData : Dict Text Mux} {peer : MuxPeer}

@[simp] theorem Mux.joined_nil (mux : Mux) : mux.joined [] = mux := by
  simp [joined]

theorem Mux.joined_snoc (mux : Mux) (rows : List MuxPeer) (row : MuxPeer) :
    mux.joined (rows ++ [row]) =
      if row.muxName = mux.name then (mux.joined rows).addPeer row row.isTransit else mux.joined rows := by
  by_cases own : row.muxName = mux.name
  · cases transit : row.isTransit <;> simp [joined, addPeer, own, transit, List.filter_append]
  · simp [joined, own, List.filter_append]

theorem joins_nil (distinct : (muxes.map Mux.name).Nodup) : Joins muxes [] (muxes.foldl addMux .empty) := by
  have entries : (muxes.foldl addMux .empty).entries = Dict.empty.entries ++ muxes.map fun mux => (mux.name, mux) :=
    Dict.entries_foldl_set id (by simpa [Dict.keys, Dict.empty] using distinct)
  refine ⟨by rw [Dict.keys, entries]; simp [Dict.empty], fun mux member => ?_⟩
  rw [Mux.joined_nil]
  refine Dict.get?_of_mem_entries ?_
  rw [entries]
  exact List.mem_append_right _ (List.mem_map_of_mem member)

theorem Joins.add (joins : Joins muxes rows muxData) (listed : peer.muxName ∈ muxes.map Mux.name) :
    ∃ after, addPeer muxData peer = .ok after ∧ Joins muxes (rows ++ [peer]) after := by
  obtain ⟨mux, member, named⟩ := List.mem_map.mp listed
  have found := joins.found mux member
  rw [named] at found
  refine ⟨muxData.set peer.muxName ((mux.joined rows).addPeer peer peer.isTransit), by simp [addPeer, found, orRaise], ?_, ?_⟩
  · rw [Dict.keys_set, joins.names, if_pos listed]
  · intro other inside
    rw [Dict.get?_set, Mux.joined_snoc, joins.found other inside]
    by_cases own : peer.muxName = other.name
    · have same := joins.found other inside
      rw [← own, found] at same
      rw [if_pos own, if_pos own, Option.some.inj same]
    · rw [if_neg own, if_neg own]

theorem Joins.addAll (joins : Joins muxes rows muxData) {peers : List MuxPeer}
    (listed : ∀ peer ∈ peers, peer.muxName ∈ muxes.map Mux.name) :
    ∃ after, peers.foldlM addPeer muxData = .ok after ∧ Joins muxes (rows ++ peers) after := by
  induction peers generalizing rows muxData with
  | nil => exact ⟨muxData, rfl, by simpa using joins⟩
  | cons peer rest ih =>
      obtain ⟨first, later⟩ := List.forall_mem_cons.mp listed
      obtain ⟨next, added, joined⟩ := joins.add first
      obtain ⟨after, done, all⟩ := ih joined later
      exact ⟨after, by rw [List.foldlM_cons, added]; exact done, by simpa using all⟩

/-- The rows of the tables, as they are parsed. -/
structure Tables (lower : Text → Text) (portToMux peerTable : Text) (muxes : List Mux) (peers : List MuxPeer) : Prop where
  muxLines : ((Text.readlines portToMux).drop 1).mapM parseMux = .ok muxes
  peerLines : ((Text.csvReader peerTable).drop 1).mapM (parsePeer lower) = .ok peers
  distinct : (muxes.map Mux.name).Nodup
  listed : ∀ peer ∈ peers, peer.muxName ∈ muxes.map Mux.name

theorem Tables.setup {lower : Text → Text} {portToMux peerTable : Text} {peers : List MuxPeer}
    (tables : Tables lower portToMux peerTable muxes peers) :
    ∃ muxData, setupMuxData lower portToMux peerTable = .ok muxData ∧ Joins muxes peers muxData := by
  obtain ⟨muxData, done, joins⟩ := (joins_nil tables.distinct).addAll tables.listed
  have loaded : loadMuxes portToMux = .ok (muxes.foldl addMux .empty) := by
    refine (foldlM_of_mapM tables.muxLines Dict.empty).trans ?_
    rw [List.foldlM_pure]
    rfl
  refine ⟨muxData, ?_, joins⟩
  rw [setupMuxData, loaded, except_bind_ok]
  exact (foldlM_of_mapM tables.peerLines _).trans done

end Tables

section Lookup

variable {muxes : List Mux} {rows : List MuxPeer} {muxData : Dict Text Mux} {mux : Mux}

theorem Joins.getMuxForPort (joins : Joins muxes rows muxData) (member : mux ∈ muxes)
    (only : ∀ other ∈ muxes, other.port = mux.port → other.name = mux.name) :
    getMuxForPort muxData mux.port = .ok mux.name := by
  have inside := Dict.mem_entries_of_get? (joins.found mux member)
  unfold FrrpPeering.getMuxForPort
  cases found : muxData.entries.find? fun entry => entry.2.port = mux.port with
  | none =>
      have absent := List.find?_eq_none.mp found _ inside
      simp [Mux.joined] at absent
  | some entry =>
      have atPort : entry.2.port = mux.port := by simpa using List.find?_some found
      have entered := List.mem_of_find?_eq_some found
      have named : entry.1 ∈ muxes.map Mux.name := joins.names ▸ List.mem_map_of_mem entered
      obtain ⟨other, listed, same⟩ := List.mem_map.mp named
      have value : entry.2 = other.joined rows := by
        have kept : muxData.get? entry.1 = some entry.2 := Dict.get?_of_mem_entries entered
        rw [← same, joins.found other listed] at kept
        exact (Option.some.inj kept).symm
      rw [value] at atPort
      exact congrArg Except.ok (same.symm.trans (only other listed atPort))

theorem Joins.getMuxData (joins : Joins muxes rows muxData) (member : mux ∈ muxes) (ipVersion : Text) (withPeers : Bool) :
    getMuxData muxData mux.name ipVersion withPeers =
      .ok (mux.port, (mux.joined rows).buildCommunities ipVersion withPeers) := by
  simp [FrrpPeering.getMuxData, joins.found mux member, orRaise, Mux.joined]

theorem parseMux_new {line : Text} (parsed : parseMux line = .ok mux) : mux.peers = [] ∧ mux.transits = [] := by
  obtain ⟨muxName, _, parsed⟩ := except_bind_eq_ok.mp parsed
  obtain ⟨portText, _, parsed⟩ := except_bind_eq_ok.mp parsed
  obtain ⟨port, _, parsed⟩ := except_bind_eq_ok.mp parsed
  obtain ⟨ipV4, _, parsed⟩ := except_bind_eq_ok.mp parsed
  obtain ⟨ipV6, _, parsed⟩ := except_bind_eq_ok.mp parsed
  cases parsed
  exact ⟨rfl, rfl⟩

end Lookup

/-- The rows of the mux with the IP version, in the order of the file. -/
def rowsOf (peers : List MuxPeer) (mux : Mux) (ipVersion : Text) (isTransit : Bool) : List MuxPeer :=
  peers.filter fun peer => peer.muxName = mux.name ∧ peer.ipVersion = ipVersion ∧ peer.isTransit = isTransit

theorem buildCommunities_joined {mux : Mux} (fresh : mux.peers = [] ∧ mux.transits = []) (peers : List MuxPeer)
    (ipVersion : Text) (complete : Bool) :
    (mux.joined peers).buildCommunities ipVersion complete =
      (rowsOf peers mux ipVersion true).map mux.community ++
        if complete then (rowsOf peers mux ipVersion false).map mux.community else [] := by
  have rows (isTransit : Bool) :
      (peers.filter fun row => row.muxName = mux.name ∧ row.isTransit = isTransit).filter (·.ipVersion = ipVersion) =
        rowsOf peers mux ipVersion isTransit := by
    rw [rowsOf, List.filter_filter]
    refine List.filter_congr fun row _ => ?_
    simp only [← Bool.decide_and, decide_eq_decide]
    tauto
  have community : (mux.joined peers).community = mux.community := rfl
  simp only [Mux.buildCommunities, community]
  simp only [Mux.joined, fresh, List.nil_append, rows]
  cases complete <;> simp

/-- A port that one mux has leads to the sessions that the table lists for this mux. -/
theorem communities_of_port {lower : Text → Text} {portToMux peerTable : Text} {muxes : List Mux} {peers : List MuxPeer}
    (tables : Tables lower portToMux peerTable muxes peers) {mux : Mux} (member : mux ∈ muxes)
    (only : ∀ other ∈ muxes, other.port = mux.port → other.name = mux.name) (ipVersion : Text) (withPeers : Bool) :
    ∃ muxData, setupMuxData lower portToMux peerTable = .ok muxData ∧
      (do getMuxData muxData (← getMuxForPort muxData mux.port) ipVersion withPeers) =
        .ok (mux.port, (rowsOf peers mux ipVersion true).map mux.community ++
          if withPeers then (rowsOf peers mux ipVersion false).map mux.community else []) := by
  obtain ⟨muxData, done, joins⟩ := tables.setup
  obtain ⟨line, _, parsed⟩ := exists_of_mem_mapM tables.muxLines member
  refine ⟨muxData, done, ?_⟩
  rw [joins.getMuxForPort member only, except_bind_ok, joins.getMuxData member,
    buildCommunities_joined (parseMux_new parsed)]

def examplePorts : Text := "mux,port\namsterdam01,47065,100.69.128.5,::5\nusc01,0,0,0\n".toList

def examplePeers : Text :=
  ("BGP Mux,Peer\namsterdam01,\"Linode, LLC\",63949,80.249.212.136,IPv4,—,✘,✘,272\n" ++
    "amsterdam01,Coloclue,8283,80.249.211.161,IPv4,—,✔,✘,60\nusc01,USC,226,::1,IPv6,—,✔,✘,1\n").toList

def exampleMux (name : Text) (port : Int) (ipV4 ipV6 : Text) : Mux := { name := name, port := port, ipV4 := ipV4, ipV6 := ipV6 }

def examplePeer (name muxName : Text) (asn sessId : Int) (ipVersion : Text) (isTransit : Bool) : MuxPeer where
  name := name
  muxName := muxName
  asn := asn
  sessId := sessId
  ipVersion := ipVersion
  isTransit := isTransit
  isRouteServer := false

def exampleMuxes : List Mux :=
  [exampleMux "amsterdam01".toList 47065 "100.69.128.5".toList "::5".toList, exampleMux "usc01".toList 0 "0".toList "0".toList]

def exampleRows : List MuxPeer :=
  [examplePeer "Linode, LLC".toList "amsterdam01".toList 63949 272 "ipv4".toList false,
    examplePeer "Coloclue".toList "amsterdam01".toList 8283 60 "ipv4".toList true,
    examplePeer "USC".toList "usc01".toList 226 1 "ipv6".toList true]

theorem exampleTables : Tables (fun text => text.map Char.toLower) examplePorts examplePeers exampleMuxes exampleRows where
  muxLines := by decide +kernel
  peerLines := by decide +kernel
  distinct := by decide +kernel
  listed := by decide +kernel

theorem communities_of_port_example : ∃ muxData,
    setupMuxData (fun text => text.map Char.toLower) examplePorts examplePeers = .ok muxData ∧
      (do getMuxData muxData (← getMuxForPort muxData 47065) "ipv4".toList true) =
        .ok (47065, ["47065:60".toList, "47065:272".toList]) := by
  obtain ⟨muxData, done, communities⟩ :=
    communities_of_port exampleTables (List.mem_cons_self ..) (by decide +kernel) "ipv4".toList true
  exact ⟨muxData, done, communities.trans (by decide +kernel)⟩

end ActiveBgp.FrrpPeering

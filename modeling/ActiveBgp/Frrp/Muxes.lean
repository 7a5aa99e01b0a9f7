import ActiveBgp.Python.Collections
import ActiveBgp.Python.Effect

namespace ActiveBgp.FrrpPeering

open ActiveBgp.Python

structure MuxPeer where
  name : Text
  muxName : Text
  asn : Int
  sessId : Int
  ipVersion : Text
  isTransit : Bool
  isRouteServer : Bool
deriving DecidableEq, Repr

structure Mux where
  name : Text
  port : Int
  ipV4 : Text
  ipV6 : Text
  origin : Int := 47065
  peers : List MuxPeer := []
  transits : List MuxPeer := []
deriving DecidableEq, Repr

def Mux.community (mux : Mux) (peer : MuxPeer) : Text := Text.ofInt mux.origin ++ ':' :: Text.ofInt peer.sessId

def Mux.buildCommunities (mux : Mux) (ipVersion : Text) (complete : Bool) : List Text :=
  let filteredTransits := mux.transits.filter (·.ipVersion = ipVersion)
  let filteredPeers := mux.peers.filter (·.ipVersion = ipVersion)
  if complete then filteredTransits.map mux.community ++ filteredPeers.map mux.community
  else filteredTransits.map mux.community

def getMuxData (muxData : Dict Text Mux) (name ipVersion : Text) (withPeers : Bool) : Except PyError (Int × List Text) := do
  let mux ← orRaise .keyError (muxData.get? name)
  return (mux.port, mux.buildCommunities ipVersion withPeers)

/-- The first mux at the port. -/
def getMuxForPort (muxData : Dict Text Mux) (port : Int) : Except PyError Text :=
  match muxData.entries.find? fun entry => entry.2.port = port with
  | some entry => .ok entry.1
  | none => .error (.valueError ("Mux does not exist for port ".toList ++ Text.ofInt port ++ "!".toList))

end ActiveBgp.FrrpPeering

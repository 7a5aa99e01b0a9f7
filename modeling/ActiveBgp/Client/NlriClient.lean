import ActiveBgp.Server.Requests

namespace ActiveBgp.Client

open ActiveBgp.Python ActiveBgp.Rib ActiveBgp.Server

variable {ip : Ipaddress}

/-- The client's values when it sent a request, and the server once it was handled. -/
structure Exchange (ip : Ipaddress) where
  method : HttpMethod
  client : NLRI ip
  server : State ip

structure Link (ip : Ipaddress) where
  server : State ip
  exchanges : List (Exchange ip)

/-- `str(self.announce)` -/
def boolText (value : Bool) : Text :=
  if value then "True".toList else "False".toList

/-- The `params` of `_request`.  Only the communities are joined without `str`. -/
def params (nlri : NLRI ip) : Except PyError (List (QueryKey × Text)) := do
  let community ← nlri.community.mapM Value.joined
  return [(.nextHop, nlri.nextHop.text),
    (.list .asSeq, ",".toList.intercalate (nlri.asSeq.map Value.text)),
    (.list .asSet, ",".toList.intercalate (nlri.asSet.map Value.text)),
    (.list .community, ",".toList.intercalate community),
    (.announce, boolText nlri.announce)]

/-- `_request`; its callers ignore the response. -/
def request (method : HttpMethod) (nlri : NLRI ip) : Effect (Link ip) Unit := do
  let args ← Effect.ofExcept (params nlri)
  modify fun link =>
    let server := (handle ⟨method, '/' :: ip.networkText nlri.routePrefix, args⟩ link.server).2
    { server, exchanges := link.exchanges ++ [⟨method, nlri, server⟩] }

/-- `NLRIClient._do_announce` and `NLRIClient._do_withdraw` -/
def clientMethods (ip : Ipaddress) : Methods ip (Link ip) where
  doAnnounce nlri := if nlri.announce then request .post nlri else pure ()
  doWithdraw nlri := if ¬ nlri.announce then request .post nlri else pure ()

def del (nlri : NLRI ip) : Effect (Link ip) Unit := request .delete nlri

end ActiveBgp.Client

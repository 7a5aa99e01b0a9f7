import ActiveBgp.Frrp.Announcement
import ActiveBgp.Frrp.Muxes

namespace ActiveBgp

open ActiveBgp.Python ActiveBgp.Rib ActiveBgp.Server

namespace Frrp

/-- A URL at the local host. -/
structure Url where
  port : Int
  path : Text
  query : List (QueryKey × Text)
deriving DecidableEq, Repr

def Url.text (url : Url) : Text :=
  "http://localhost:".toList ++ Text.ofInt url.port ++ url.path ++
    '?' :: "&".toList.intercalate (url.query.map fun entry => entry.1.val ++ '=' :: entry.2)

/-- The requests that were sent, and the lines that were logged. -/
structure Traffic where
  sent : List Url
  log : List Text

def Traffic.send (traffic : Traffic) (url : Url) : Traffic := { traffic with sent := traffic.sent ++ [url] }

/-- The status of the answer, or the exception where there is none. -/
abbrev Network := List Url → Url → Except PyError Nat

/-- `requests.post`, whose argument is not optional. -/
def requestsPost (network : Network) : Option Url → Effect Traffic Nat
  | some url => do
      let traffic ← get
      set (traffic.send url)
      Effect.ofExcept (network traffic.sent url)
  | none => throw .typeError

def requireOk (status : Nat) : Effect Traffic Unit := do
  if status ≠ 200 then throw (.valueError "Could not make announcement!".toList)

def logMessage (msg : Text) : Effect Traffic Unit :=
  modify fun traffic => { traffic with log := traffic.log ++ [msg] }

/-- The value of `as_seq`. -/
def asSeqText (origin : Int) : Option (IndexedSet Int) → Text
  | some asns => ",".toList.intercalate ((asns.items ++ [origin]).map Text.ofInt)
  | none => []

def asSeqUrl (routePrefix seq : Text) (port : Int) : Url := ⟨port, '/' :: routePrefix, [(.list .asSeq, seq)]⟩

end Frrp

namespace Frrp.Posts

/-- The loop of `make_announcement` in `frrp.py`. -/
def sendAll (network : Network) (routePrefix : Text) (origin : Int) (asSeqSet : Option (IndexedSet Int)) :
    List Int → Effect Traffic Unit
  | [] => pure ()
  | port :: ports => do
      let status ← requestsPost network (some (asSeqUrl routePrefix (asSeqText origin asSeqSet) port))
      requireOk status
      sendAll network routePrefix origin asSeqSet ports

/-- `make_announcement` of `frrp.py` -/
def makeAnnouncement (network : Network) (routePrefix : Text) (ports : List Int) (asSeq : AsSeq) (origin : Int) :
    Effect Traffic Unit := do
  let asSeqSet ← Effect.ofExcept asSeq.asSeqSet
  sendAll network routePrefix origin asSeqSet ports

end Frrp.Posts

namespace FrrpPeering

open ActiveBgp.Frrp

/-- The set of the poisons, with the message for what is neither a set nor a number. -/
def poisonSet (message : Text) : AsSeq → Except PyError (Option (IndexedSet Int))
  | .none => .ok Option.none
  | .set asns => .ok (some asns)
  | .int asn => .ok (some (IndexedSet.empty.add asn))
  | .other => .error (.valueError message)

def logPost (url : Url) : Effect Traffic Unit := logMessage ("Sending POST to ".toList ++ url.text)

/-- The loop for the servers, where the request with poisons has no URL. -/
def sendAll (network : Network) (routePrefix : Text) (origin : Int) (asSeqSet : Option (IndexedSet Int)) :
    List Int → Effect Traffic Unit
  | [] => pure ()
  | port :: ports => do
      let status ← match asSeqSet with
        | some asns => do
            logPost (asSeqUrl routePrefix (asSeqText origin (some asns)) port)
            requestsPost network none
        | none => do
            logPost (asSeqUrl routePrefix [] port)
            requestsPost network (some (asSeqUrl routePrefix [] port))
      requireOk status
      sendAll network routePrefix origin asSeqSet ports

def asSetText : Option (IndexedSet Int) → Text
  | some asns => ",".toList.intercalate (asns.items.map Text.ofInt)
  | none => []

/-- The loop for PEERING. -/
def sendToMuxes (network : Network) (muxData : Dict Text Mux) (routePrefix : Text) (asSetSet : Option (IndexedSet Int)) :
    List Int → Effect Traffic Unit
  | [] => pure ()
  | port :: ports => do
      let muxName ← Effect.ofExcept (getMuxForPort muxData port)
      let (muxPort, communityList) ← Effect.ofExcept (getMuxData muxData muxName "ipv4".toList true)
      let url : Url := ⟨muxPort, '/' :: routePrefix,
        [(.list .community, ",".toList.intercalate communityList), (.list .asSet, asSetText asSetSet)]⟩
      logPost url
      let status ← requestsPost network (some url)
      requireOk status
      sendToMuxes network muxData routePrefix asSetSet ports

/-- `make_announcement` of `frrp_peering.py` -/
def makeAnnouncement (network : Network) (muxData : Dict Text Mux) (peering : Bool) (routePrefix : Text) (ports : List Int)
    (poisons : AsSeq) (origin : Int) : Effect Traffic Unit :=
  if !peering then do
    let asSeqSet ← Effect.ofExcept (poisonSet "AS Seq is not a set or int!".toList poisons)
    sendAll network routePrefix origin asSeqSet ports
  else do
    let asSetSet ← Effect.ofExcept (poisonSet "AS Set is not a set or int!".toList poisons)
    sendToMuxes network muxData routePrefix asSetSet ports

end FrrpPeering

namespace Frrp

section Exchanges

variable {network : Network} {routePrefix : Text} {origin : Int} {traffic : Traffic}

@[simp] theorem Traffic.sent_send (traffic : Traffic) (url : Url) : (traffic.send url).sent = traffic.sent ++ [url] := rfl

/-- Whether the request is answered well. -/
def answered (network : Network) (sent : List Url) (url : Url) : Except PyError Unit := do
  let status ← network sent url
  if status ≠ 200 then throw (.valueError "Could not make announcement!".toList)

theorem exchange (url : Url) (traffic : Traffic) :
    (requestsPost network (some url) >>= requireOk) traffic =
      Effect.ofExcept (answered network traffic.sent url) (traffic.send url) := by
  rw [Effect.bind_eq, requestsPost]
  simp only [Effect.bind_eq, Effect.get_apply, Effect.set_apply, answered]
  cases network traffic.sent url with
  | error error => rfl
  | ok status =>
      simp only [Effect.ofExcept_ok, requireOk, except_bind_ok]
      split <;> rfl

theorem Posts.sendAll_cons (asSeqSet : Option (IndexedSet Int)) (port : Int) (ports : List Int) (traffic : Traffic) :
    let url := asSeqUrl routePrefix (asSeqText origin asSeqSet) port
    Posts.sendAll network routePrefix origin asSeqSet (port :: ports) traffic =
      match answered network traffic.sent url with
      | .ok () => Posts.sendAll network routePrefix origin asSeqSet ports (traffic.send url)
      | .error error => .error error (traffic.send url) := by
  intro url
  have step : Posts.sendAll network routePrefix origin asSeqSet (port :: ports) =
      (requestsPost network (some url) >>= requireOk) >>= fun _ =>
        Posts.sendAll network routePrefix origin asSeqSet ports := by
    rw [bind_assoc]
    rfl
  rw [step, Effect.bind_eq, exchange]
  cases answered network traffic.sent url <;> rfl

theorem Posts.sent_sendAll (asSeqSet : Option (IndexedSet Int)) (ports : List Int) (traffic : Traffic) :
    traffic.sent <+: (final (Posts.sendAll network routePrefix origin asSeqSet ports traffic)).sent := by
  induction ports generalizing traffic with
  | nil => exact List.prefix_rfl
  | cons port ports ih =>
      rw [Posts.sendAll_cons]
      have grown := List.prefix_append traffic.sent [asSeqUrl routePrefix (asSeqText origin asSeqSet) port]
      cases answered network traffic.sent _ with
      | error error => exact grown
      | ok value => exact grown.trans (ih (traffic.send _))

theorem Posts.sent_sendAll_cons (asSeqSet : Option (IndexedSet Int)) (port : Int) (ports : List Int) (traffic : Traffic) :
    traffic.sent ++ [asSeqUrl routePrefix (asSeqText origin asSeqSet) port] <+:
      (final (Posts.sendAll network routePrefix origin asSeqSet (port :: ports) traffic)).sent := by
  rw [Posts.sendAll_cons]
  cases answered network traffic.sent _ with
  | error error => exact List.prefix_rfl
  | ok value => exact Posts.sent_sendAll asSeqSet ports (traffic.send _)

/-- Every request is answered well. -/
def Answers (network : Network) : Prop := ∀ sent url, network sent url = .ok 200

theorem Posts.sendAll_answered (answers : Answers network) (asSeqSet : Option (IndexedSet Int)) (ports : List Int)
    (traffic : Traffic) :
    (final (Posts.sendAll network routePrefix origin asSeqSet ports traffic)).sent =
      traffic.sent ++ ports.map (asSeqUrl routePrefix (asSeqText origin asSeqSet)) := by
  induction ports generalizing traffic with
  | nil => exact (List.append_nil _).symm
  | cons port ports ih =>
      have good : answered network traffic.sent (asSeqUrl routePrefix (asSeqText origin asSeqSet) port) = .ok () := by
        rw [answered, answers]
        rfl
      rw [Posts.sendAll_cons, good]
      simp only [ih, Traffic.sent_send, List.append_assoc, List.map_cons, List.singleton_append]

end Exchanges

end Frrp

namespace FrrpPeering

open ActiveBgp.Frrp

variable {network : Network} {routePrefix : Text} {origin : Int}

theorem poisonSet_eq_ok {message : Text} {poisons : AsSeq} {asns : Option (IndexedSet Int)} :
    poisonSet message poisons = .ok asns ↔ poisons.asSeqSet = .ok asns := by
  cases poisons <;> simp [poisonSet, AsSeq.asSeqSet]

theorem sendAll_none_cons (port : Int) (ports : List Int) (traffic : Traffic) :
    let url := asSeqUrl routePrefix [] port
    let logged := { traffic with log := traffic.log ++ ["Sending POST to ".toList ++ url.text] }
    sendAll network routePrefix origin none (port :: ports) traffic =
      match answered network traffic.sent url with
      | .ok () => sendAll network routePrefix origin none ports (logged.send url)
      | .error error => .error error (logged.send url) := by
  intro url logged
  have step : sendAll network routePrefix origin none (port :: ports) =
      logPost url >>= fun _ => (requestsPost network (some url) >>= requireOk) >>= fun _ =>
        sendAll network routePrefix origin none ports := by
    rw [sendAll]
    simp only [bind_assoc]
    rfl
  rw [step, Effect.bind_eq, logPost, logMessage, Effect.modify_apply]
  simp only
  rw [Effect.bind_eq, exchange]
  cases answered network traffic.sent url <;> rfl

/-- Without poisons the copy sends what `frrp.py` sends. -/
theorem sent_sendAll_none (ports : List Int) {traffic other : Traffic} (same : traffic.sent = other.sent) :
    (final (sendAll network routePrefix origin none ports traffic)).sent =
      (final (Posts.sendAll network routePrefix origin none ports other)).sent := by
  induction ports generalizing traffic other with
  | nil => exact same
  | cons port ports ih =>
      have plain : asSeqText origin none = [] := rfl
      rw [sendAll_none_cons, Posts.sendAll_cons, plain, same]
      cases answered network other.sent (asSeqUrl routePrefix [] port) with
      | error error => rfl
      | ok value => exact ih rfl

theorem sent_sendAll_some (asns : IndexedSet Int) (port : Int) (ports : List Int) (traffic : Traffic) :
    (final (sendAll network routePrefix origin (some asns) (port :: ports) traffic)).sent = traffic.sent := rfl

/-- Both copies send the same requests, one for each port if all are answered well. -/
def SendsAlike (network : Network) (muxData : Dict Text Mux) (routePrefix : Text) (ports : List Int) (poisons : AsSeq)
    (origin : Int) (traffic : Traffic) : Prop :=
  let original := (final (Posts.makeAnnouncement network routePrefix ports poisons origin traffic)).sent
  (final (makeAnnouncement network muxData false routePrefix ports poisons origin traffic)).sent = original ∧
    ∀ asns, Answers network → poisons.asSeqSet = .ok asns →
      original = traffic.sent ++ ports.map (asSeqUrl routePrefix (asSeqText origin asns))

/-- The copies send alike only where there is nothing to send with poisons. -/
theorem sendsAlike_iff (network : Network) (muxData : Dict Text Mux) (routePrefix : Text) (ports : List Int) (poisons : AsSeq)
    (origin : Int) (traffic : Traffic) :
    SendsAlike network muxData routePrefix ports poisons origin traffic ↔
      ports = [] ∨ ∀ asns, poisons.asSeqSet ≠ .ok (some asns) := by
  have original : Posts.makeAnnouncement network routePrefix ports poisons origin traffic = _ := Effect.bind_eq ..
  have copy : makeAnnouncement network muxData false routePrefix ports poisons origin traffic = _ := Effect.bind_eq ..
  rw [SendsAlike, original, copy]
  cases given : poisons.asSeqSet with
  | error error =>
      obtain ⟨other, refused⟩ : ∃ other, poisonSet "AS Seq is not a set or int!".toList poisons = .error other := by
        cases poisons <;> simp_all [AsSeq.asSeqSet, poisonSet]
      rw [refused]
      simp
  | ok asSeqSet =>
      rw [poisonSet_eq_ok.mpr given]
      simp only [Effect.ofExcept_ok]
      have all (asns : Option (IndexedSet Int)) (answers : Answers network) (same : (Except.ok asSeqSet : Except PyError _) = .ok asns) :
          (final (Posts.sendAll network routePrefix origin asSeqSet ports traffic)).sent =
            traffic.sent ++ ports.map (asSeqUrl routePrefix (asSeqText origin asns)) := by
        cases same
        exact Posts.sendAll_answered answers asSeqSet ports traffic
      cases asSeqSet with
      | none => exact iff_of_true ⟨sent_sendAll_none ports rfl, all⟩ (.inr fun asns => by simp)
      | some asns =>
          cases ports with
          | nil => exact iff_of_true ⟨rfl, all⟩ (.inl rfl)
          | cons port ports =>
              refine iff_of_false (fun alike => ?_) (by simp)
              have first := @Posts.sent_sendAll_cons network routePrefix origin (some asns) port ports traffic
              rw [← alike.1, sent_sendAll_some] at first
              have longer := first.length_le
              rw [List.length_append, List.length_singleton] at longer
              omega

/-- `frrp.py` sends one request to each of the two ports, and the copy none. -/
theorem poisons_unsent :
    let network : Network := fun _ _ => .ok 200
    let poisons : AsSeq := .set (IndexedSet.empty.add 65001)
    ¬ SendsAlike network .empty "208.45.214.0/24".toList [3356, 12083] poisons 3450 ⟨[], []⟩ ∧
      ((final (Posts.makeAnnouncement network "208.45.214.0/24".toList [3356, 12083] poisons 3450 ⟨[], []⟩)).sent.map
        Url.text) = ["http://localhost:3356/208.45.214.0/24?as_seq=65001,3450".toList,
          "http://localhost:12083/208.45.214.0/24?as_seq=65001,3450".toList] ∧
      (final (makeAnnouncement network .empty false "208.45.214.0/24".toList [3356, 12083] poisons 3450 ⟨[], []⟩)).sent =
        [] := by
  refine ⟨fun alike => ?_, by decide +kernel, by decide +kernel⟩
  exact absurd alike.1 (by decide +kernel)

end FrrpPeering

namespace Frrp

section Servers

variable {ip : Ipaddress}

/-- The servers after the requests. -/
def replay (servers : Servers ip) (sent : List Url) : Servers ip :=
  sent.foldl (fun servers url => Function.update servers url.port.toNat
    (handle ⟨.post, url.path, url.query⟩ (servers url.port.toNat)).2) servers

theorem replay_snoc (servers : Servers ip) (sent : List Url) (url : Url) :
    replay servers (sent ++ [url]) = Function.update (replay servers sent) url.port.toNat
      (handle ⟨.post, url.path, url.query⟩ (replay servers sent url.port.toNat)).2 := by
  rw [replay, List.foldl_append]
  rfl

/-- The network with the servers behind its ports. -/
def served (servers : Servers ip) : Network := fun sent url =>
  .ok (handle ⟨.post, url.path, url.query⟩ (replay servers sent url.port.toNat)).1.status

/-- What is left of the servers and returned or raised. -/
def replayed (servers : Servers ip) : EStateM.Result PyError Traffic Unit → EStateM.Result PyError (Servers ip) Unit
  | .ok value traffic => .ok value (replay servers traffic.sent)
  | .error error traffic => .error error (replay servers traffic.sent)

theorem announceAt_replayed (servers : Servers ip) (routePrefix : Text) (asSeqSet : Option (IndexedSet Int))
    (ports : List Nat) (traffic : Traffic) :
    announceAt ⟨.post, '/' :: routePrefix, [(.list .asSeq, queryText asSeqSet)]⟩ ports (replay servers traffic.sent) =
      replayed servers (Posts.sendAll (served servers) routePrefix origin asSeqSet (ports.map Int.ofNat) traffic) := by
  induction ports generalizing traffic with
  | nil => rfl
  | cons port ports ih =>
      have text : asSeqText origin asSeqSet = queryText asSeqSet := by cases asSeqSet <;> rfl
      obtain ⟨url, isUrl⟩ : ∃ url, url = asSeqUrl routePrefix (queryText asSeqSet) (Int.ofNat port) := ⟨_, rfl⟩
      have reply : handle ⟨.post, url.path, url.query⟩ (replay servers traffic.sent url.port.toNat) =
          handle ⟨.post, '/' :: routePrefix, [(.list .asSeq, queryText asSeqSet)]⟩ (replay servers traffic.sent port) := by
        rw [isUrl]
        rfl
      cases answer : handle ⟨.post, '/' :: routePrefix, [(.list .asSeq, queryText asSeqSet)]⟩
          (replay servers traffic.sent port) with
      | mk response after =>
          rw [answer] at reply
          have port_url : url.port.toNat = port := by rw [isUrl]; rfl
          have sent : replay servers (traffic.send url).sent = Function.update (replay servers traffic.sent) port after := by
            rw [Traffic.sent_send, replay_snoc, reply, port_url]
          have status : served servers traffic.sent url = .ok response.status := by
            rw [served, reply]
          have posted : post port ⟨.post, '/' :: routePrefix, [(.list .asSeq, queryText asSeqSet)]⟩
              (replay servers traffic.sent) = .ok response (replay servers (traffic.send url).sent) := by
            simp only [post, Effect.bind_eq, Effect.get_apply, Effect.set_apply, answer, Effect.pure_apply, sent]
          rw [List.map_cons, Posts.sendAll_cons, text, ← isUrl, announceAt, Effect.bind_eq, posted, answered, status,
            except_bind_ok]
          simp only
          by_cases good : response.status = 200
          · simp only [good, ne_eq, not_true, if_false]
            exact ih (traffic.send url)
          · simp only [good, ne_eq, not_false_eq_true, if_true]
            rfl

theorem makeAnnouncement_replayed (servers : Servers ip) (routePrefix : Text) (ports : List Nat) (asSeq : AsSeq) :
    makeAnnouncement routePrefix ports asSeq servers =
      replayed servers (Posts.makeAnnouncement (served servers) routePrefix (ports.map Int.ofNat) asSeq origin ⟨[], []⟩) := by
  have original : Posts.makeAnnouncement (served servers) routePrefix (ports.map Int.ofNat) asSeq origin ⟨[], []⟩ = _ :=
    Effect.bind_eq ..
  rw [makeAnnouncement, Effect.bind_eq, original]
  cases asSeq.asSeqSet with
  | error error => rfl
  | ok asSeqSet => exact announceAt_replayed servers routePrefix asSeqSet ports ⟨[], []⟩

end Servers

end Frrp

end ActiveBgp

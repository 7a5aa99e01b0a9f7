import ActiveBgp.Client.Encoding
import ActiveBgp.Rib.Ipv4

namespace ActiveBgp.Client

open ActiveBgp.Python ActiveBgp.Rib ActiveBgp.Server ActiveBgp.Data

variable {ip : Ipaddress}

/-! # The server's entry follows the client

An entry is a register for each list of the clients that were sent: an empty
list does not arrive, so the entry keeps the one before.
-/

/-- The entry for `network` after the given values were sent, oldest first. -/
def published (sent : List (NLRI ip)) (network : ip.Network) : Option (NLRI ip) :=
  sent.foldl (fun old nlri => if nlri.routePrefix = network then some (received old nlri) else old) none

theorem published_append (sent : List (NLRI ip)) (nlri : NLRI ip) (network : ip.Network) :
    published (sent ++ [nlri]) network =
      if nlri.routePrefix = network then some (received (published sent network) nlri)
      else published sent network := by
  simp [published]

theorem received_list (old : Option (NLRI ip)) (nlri : NLRI ip) (name : ListName) :
    (received old nlri).list name = writeOver [] (shownList old name) (nlri.list name) := by
  cases name <;> rfl

/-- Each list of an entry is a register of the lists that were sent for its network. -/
theorem shownList_published (sent : List (NLRI ip)) (network : ip.Network) (name : ListName) :
    shownList (published sent network) name =
      register [] ((sent.filter (·.routePrefix = network)).map (·.list name)) := by
  induction sent using List.reverseRecOn with
  | nil => rfl
  | append_singleton earlier nlri ih =>
      rw [published_append, List.filter_append, List.map_append]
      by_cases same : nlri.routePrefix = network
      · rw [if_pos same]
        simp [same, shownList, received_list, register_append, ← ih]
      · simp [same, ih]

/-- The entry equals the values sent last just when no list was emptied. -/
theorem published_last (sent : List (NLRI ip)) (nlri : NLRI ip) :
    published (sent ++ [nlri]) nlri.routePrefix = some nlri ↔
      ∀ name, nlri.list name = [] → ∀ earlier ∈ sent, earlier.routePrefix = nlri.routePrefix →
        earlier.list name = [] := by
  have lists : received (published sent nlri.routePrefix) nlri = nlri ↔
      ∀ name, (received (published sent nlri.routePrefix) nlri).list name = nlri.list name := by
    refine ⟨fun same name => by rw [same], fun same => ?_⟩
    have community := same .community
    have asSeq := same .asSeq
    have asSet := same .asSet
    simp only [received, NLRI.list] at community asSeq asSet ⊢
    rw [community, asSeq, asSet]
  rw [published_append, if_pos rfl, Option.some.injEq, lists]
  refine forall_congr' fun name => ?_
  rw [received_list, shownList_published, ← register_append, register_eq_last]
  simp only [List.forall_mem_map, List.mem_filter, decide_eq_true_eq, and_imp]

def Answered (before : List (Exchange ip)) (exchange : Exchange ip) : Prop :=
  ∀ network, exchange.server.nlri.get? network =
    published (before.map Exchange.client ++ [exchange.client]) network

/-- The server is what the requests so far have made of an empty one. -/
structure Linked (object : Object ip (Link ip)) : Prop where
  typed : object.nlri.WellTyped
  mirrored : Mirrored object.world.server
  entries : ∀ network,
    object.world.server.nlri.get? network = published (object.world.exchanges.map Exchange.client) network
  answered : Chronicle Answered object.world.exchanges

theorem Linked.post {object : Object ip (Link ip)} (linked : Linked object) {nlri : NLRI ip}
    (typed : nlri.WellTyped) :
    ∃ world, request .post nlri object.world = .ok () world ∧ Linked ⟨nlri, world⟩ := by
  obtain ⟨server, done, mirrored, entry, elsewhere⟩ := request_post linked.mirrored typed
  have entries (network : ip.Network) : server.nlri.get? network =
      published (object.world.exchanges.map Exchange.client ++ [nlri]) network := by
    rw [published_append]
    split
    · rename_i same
      rw [← same, entry, linked.entries]
    · rename_i different
      rw [elsewhere network (Ne.symm different), linked.entries]
  refine ⟨_, done, typed, mirrored, fun network => ?_, (chronicle_snoc _).mpr ⟨linked.answered, entries⟩⟩
  simpa using entries network

theorem linked_observer : Observer (clientMethods ip) Linked Linked where
  typed _ linked := linked.typed
  revise _ _ linked revision := ⟨revision.typed, linked.mirrored, linked.entries, linked.answered⟩
  notify object linked := by
    cases announced : object.nlri.announce with
    | true => simpa [clientMethods, announced] using linked.post linked.typed
    | false => exact ⟨object.world, by simp [clientMethods, announced], linked⟩
  announce object linked _ := by
    have typed : ({ object.nlri with announce := true } : NLRI ip).WellTyped :=
      ⟨linked.typed.community, linked.typed.asSeq, linked.typed.asSet⟩
    simpa [clientMethods] using linked.post typed
  withdraw object linked _ := by
    have typed : ({ object.nlri with announce := false } : NLRI ip).WellTyped :=
      ⟨linked.typed.community, linked.typed.asSeq, linked.typed.asSet⟩
    simpa [clientMethods] using linked.post typed

/-- An assignment or a list operation on a client, by code that catches its exceptions. -/
inductive ClientStep where
  | setattr (kwarg : Kwarg)
  | setPrefix (text : Text)
  | listOp (name : ListName) (op : ListOp)
deriving DecidableEq, Repr

def ClientStep.Given : ClientStep → Prop
  | .setattr kwarg => kwarg.Given
  | .setPrefix _ => True
  | .listOp name op => op.Given name

def ClientStep.run (object : Object ip (Link ip)) : ClientStep → Object ip (Link ip)
  | .setattr kwarg => final ((clientMethods ip).setattr kwarg object)
  | .setPrefix text => final ((clientMethods ip).setPrefix (ip.network? text) object)
  | .listOp name op => final ((clientMethods ip).listOp name op object)

/-- `NLRIClient(text, **kwargs)` against an empty RIB, and what is done with the client. -/
def session (ip : Ipaddress) (text : Text) (kwargs : List Kwarg) (steps : List ClientStep) : Link ip :=
  match (clientMethods ip).new (ip.network? text) kwargs ⟨State.empty ip, []⟩ with
  | .ok nlri link => (steps.foldl ClientStep.run ⟨nlri, link⟩).world
  | .error _ link => link

theorem Linked.setPrefix {object : Object ip (Link ip)} (linked : Linked object) (parsed : Option ip.Network) :
    Linked (final ((clientMethods ip).setPrefix parsed object)) := by
  have moved {object : Object ip (Link ip)} (linked : Linked object) (network : ip.Network) :
      Linked { object with nlri := { object.nlri with routePrefix := network } } :=
    ⟨⟨linked.typed.community, linked.typed.asSeq, linked.typed.asSet⟩, linked.mirrored, linked.entries,
      linked.answered⟩
  unfold Methods.setPrefix
  simp only [Effect.bind_eq, Effect.get_apply]
  cases parsed with
  | none => exact linked
  | some network =>
      by_cases same : network = object.nlri.routePrefix
      · simpa [same] using linked
      · simp only [if_neg same]
        cases announced : object.nlri.announce with
        | false => simpa using moved linked network
        | true =>
            obtain ⟨quiet, withdrawn, quietLinked, _⟩ := linked_observer.setAnnounce linked false
            obtain ⟨last, announcedAgain, lastLinked, _⟩ :=
              linked_observer.setAnnounce (moved quietLinked network) true
            simpa [Effect.bind_eq, withdrawn, announcedAgain] using lastLinked

theorem Linked.step {object : Object ip (Link ip)} (linked : Linked object) {step : ClientStep}
    (given : step.Given) : Linked (step.run object) := by
  cases step with
  | setattr kwarg => exact linked_observer.synced_setattr linked given
  | setPrefix text => exact linked.setPrefix _
  | listOp name op => exact linked_observer.listOp linked given

theorem Linked.steps {object : Object ip (Link ip)} (linked : Linked object) {steps : List ClientStep}
    (given : ∀ step ∈ steps, step.Given) : Linked (steps.foldl ClientStep.run object) := by
  induction steps generalizing object with
  | nil => exact linked
  | cons step rest ih =>
      exact ih (linked.step (given step (by simp))) fun later member => given later (by simp [member])

theorem linked_start {nlri : NLRI ip} (typed : nlri.WellTyped) : Linked ⟨nlri, ⟨State.empty ip, []⟩⟩ :=
  ⟨typed, mirrored_empty, fun _ => rfl, chronicle_nil⟩

theorem session_answered {text : Text} {kwargs : List Kwarg} {steps : List ClientStep}
    (allowed : ∀ kwarg ∈ kwargs, kwarg.Given) (given : ∀ step ∈ steps, step.Given) :
    Chronicle Answered (session ip text kwargs steps).exchanges := by
  unfold session
  cases parsed : ip.network? text with
  | none =>
      obtain ⟨error, raised⟩ := (clientMethods ip).new_unparsed kwargs ⟨State.empty ip, []⟩
      rw [raised]
      exact chronicle_nil
  | some network =>
      have fresh (nlri : NLRI ip) (typed : nlri.WellTyped) (_ : nlri.announce = false)
          (_ : nlri.routePrefix = network) : Linked ⟨nlri, ⟨State.empty ip, []⟩⟩ := linked_start typed
      have created := linked_observer.new fresh allowed
      cases built : NLRI.construct network kwargs with
      | error error =>
          rw [built] at created
          rw [created]
          exact chronicle_nil
      | ok nlri =>
          rw [built] at created
          obtain ⟨link, done, linked⟩ := created
          rw [done]
          exact (linked.steps given).answered

def Exchange.Agrees (exchange : Exchange ip) : Prop :=
  exchange.server.nlri.get? exchange.client.routePrefix = some exchange.client

instance (exchange : Exchange ip) : Decidable exchange.Agrees := by
  unfold Exchange.Agrees
  infer_instance

/-- A list that is empty in a request was empty in all earlier requests for the same prefix. -/
def NeverEmptied (exchanges : List (Exchange ip)) : Prop :=
  Chronicle (fun before exchange => ∀ name, exchange.client.list name = [] →
    ∀ earlier ∈ before, earlier.client.routePrefix = exchange.client.routePrefix →
      earlier.client.list name = []) exchanges

/-- The server has the client's values after every request of a session exactly if
the client never empties a list that it sent before. -/
theorem client_server_agree_iff {text : Text} {kwargs : List Kwarg} {steps : List ClientStep}
    (allowed : ∀ kwarg ∈ kwargs, kwarg.Given) (given : ∀ step ∈ steps, step.Given) :
    (∀ exchange ∈ (session ip text kwargs steps).exchanges, exchange.Agrees) ↔
      NeverEmptied (session ip text kwargs steps).exchanges := by
  have agrees (before : List (Exchange ip)) (exchange : Exchange ip) (answered : Answered before exchange) :
      exchange.Agrees ↔ ∀ name, exchange.client.list name = [] → ∀ earlier ∈ before,
        earlier.client.routePrefix = exchange.client.routePrefix → earlier.client.list name = [] := by
    rw [Exchange.Agrees, answered, published_last]
    simp only [List.forall_mem_map]
  have answered : Chronicle Answered (session ip text kwargs steps).exchanges := session_answered allowed given
  constructor
  · intro all before exchange after same
    exact (agrees before exchange (answered before exchange after same)).mp (all exchange (by simp [same]))
  · intro kept exchange member
    obtain ⟨before, after, same, now⟩ := kept.mem member
    exact (agrees before exchange (answered before exchange after same)).mpr now

section Example

def exampleText : Text := "192.0.2.0/24".toList

def clearingSteps : List ClientStep :=
  [.setattr (.list .asSeq [.int 65001]), .setattr (.list .asSeq [])]

theorem cleared_list_stays : (∀ step ∈ clearingSteps, step.Given) ∧
    ¬ ∀ exchange ∈ (session ipv4 exampleText [] clearingSteps).exchanges, exchange.Agrees :=
  ⟨by simp [clearingSteps, ClientStep.Given, Kwarg.Given, ListName.Given], by decide +kernel⟩

def exampleClient : List ClientStep :=
  [.setattr (.list .community [.int 65536, .str "1:2".toList]),
    .listOp .asSeq (.prepend (.str "65001".toList)), .setattr (.announce false), .listOp .asSeq (.pop (-1))]

theorem client_server_agree_iff_example :
    (session ipv4 exampleText [] exampleClient).exchanges.length = 5 ∧
    ((∀ exchange ∈ (session ipv4 exampleText [] exampleClient).exchanges, exchange.Agrees) ↔
      NeverEmptied (session ipv4 exampleText [] exampleClient).exchanges) :=
  ⟨by decide +kernel, client_server_agree_iff (by simp) (by
    simp [exampleClient, ClientStep.Given, Kwarg.Given, ListOp.Given, ListName.Given, Value.Colon])⟩

end Example

end ActiveBgp.Client

import ActiveBgp.Rib.Rendering
import ActiveBgp.Server.Requests

namespace ActiveBgp.Server

open ActiveBgp.Python ActiveBgp.Rib

variable {ip : Ipaddress} {state : State ip} {network key : ip.Network}

/-- A request is received, or an entry that was removed is finalised. -/
inductive Event where
  | received (request : Request)
  | finalised (index : Nat)

def Event.run : Event → State ip → State ip
  | .received request, state => (handle request state).2
  | .finalised index, state => final (RIB.finalise index state)

def Event.Given : Event → Prop
  | .received request => request.Given
  | .finalised _ => True

def served (ip : Ipaddress) (events : List Event) : State ip :=
  events.foldl (fun state event => event.run state) (State.empty ip)

theorem mirrored_served {events : List Event} (given : ∀ event ∈ events, event.Given) :
    Mirrored (served ip events) := by
  have general {state : State ip} (mirrored : Mirrored state) :
      Mirrored (events.foldl (fun state event => event.run state) state) := by
    induction events generalizing state with
    | nil => exact mirrored
    | cons event rest ih =>
        obtain ⟨now, later⟩ := List.forall_mem_cons.mp given
        have next : Mirrored (event.run state) := by
          cases event with
          | received request => exact mirrored_handle mirrored now
          | finalised index => exact mirrored.finalise index
        exact ih later next
  exact general mirrored_empty

section Frames

theorem setattrs_elsewhere (network : ip.Network) (kwargs : List Kwarg) (state : State ip)
    (different : network ≠ key) :
    (final (RIB.setattrs network kwargs state)).nlri.get? key = state.nlri.get? key := by
  induction kwargs generalizing state with
  | nil => rfl
  | cons kwarg rest ih =>
      have first : (final (RIB.onEntry network ((printing ip).setattr kwarg) state)).nlri.get? key =
          state.nlri.get? key := by
        unfold RIB.onEntry
        cases state.nlri.get? network with
        | none => rfl
        | some nlri =>
            simp only
            cases (printing ip).setattr kwarg ⟨nlri, state.output⟩ <;> exact Dict.get?_set_ne _ _ different
      rw [RIB.setattrs, Effect.bind_eq]
      cases done : RIB.onEntry network ((printing ip).setattr kwarg) state with
      | ok _ after =>
          rw [done] at first
          exact (ih after).trans first
      | error _ after =>
          rw [done] at first
          exact first

/-- `RIB.add` leaves the other networks alone, also where it raises. -/
theorem add_elsewhere (mirrored : Mirrored state) {text : Text} (spared : ip.network? text ≠ some key)
    {kwargs : List Kwarg} (given : ∀ kwarg ∈ kwargs, kwarg.Given) :
    (final (RIB.add text kwargs state)).nlri.get? key = state.nlri.get? key := by
  unfold RIB.add
  cases parsed : ip.network? text with
  | none => rfl
  | some network =>
      have different : network ≠ key := fun same => spared (by rw [parsed, same])
      simp only [Effect.bind_eq, Effect.get_apply]
      split
      · exact setattrs_elsewhere network kwargs state different
      · rename_i absent
        have missing : state.nlri.get? network = none := by simpa [Dict.mem_keys_iff] using absent
        have created := mirrored.created missing given
        simp only [Effect.bind_eq, Effect.within]
        cases built : NLRI.construct network kwargs with
        | error error =>
            rw [built] at created
            simp [created]
        | ok nlri =>
            rw [built] at created
            obtain ⟨output, done, shown⟩ := created
            have atNetwork : nlri.routePrefix = network := shown.routePrefix
            simp only [done, Effect.modify_apply, final_ok, atNetwork]
            exact Dict.get?_set_ne _ _ different

theorem nlriAdd_elsewhere (mirrored : Mirrored state) {text : Text} (spared : ip.network? text ≠ some key)
    {items : List (QueryKey × Text)} (given : ∀ query, queryOf items = .ok query → ∀ kwarg ∈ query, kwarg.Given) :
    (final (nlriAdd text items state)).nlri.get? key = state.nlri.get? key := by
  unfold nlriAdd
  rw [Effect.bind_eq]
  cases queried : queryOf items with
  | error error => rfl
  | ok query =>
      have kept : (final (ribAdd text items query state)).nlri.get? key = state.nlri.get? key := by
        unfold ribAdd
        split
        · rfl
        · exact add_elsewhere mirrored spared (given query queried)
      simp only [Effect.ofExcept_ok, Effect.bind_eq]
      cases done : ribAdd text items query state with
      | ok _ after =>
          rw [done] at kept
          simpa [Effect.attempt_ok done, Effect.bind_eq] using kept
      | error error after =>
          rw [done] at kept
          simpa [Effect.attempt_error done] using kept

theorem nlriDel_elsewhere (mirrored : Mirrored state) {text : Text} (spared : ip.network? text ≠ some key) :
    (final (nlriDel text state)).nlri.get? key = state.nlri.get? key := by
  unfold nlriDel
  rw [Effect.bind_eq]
  cases parsed : ip.network? text with
  | none => simp [RIB.remove, parsed]
  | some network =>
      obtain ⟨last, done, _, elsewhere⟩ := mirrored.remove_ok parsed
      rw [done]
      exact elsewhere key fun same => spared (by rw [parsed, same])

end Frames

section Answers

/-- A dictionary with the attributes of a route. -/
structure Snapshot.Shows (snapshot : Snapshot) (route : Route ip) : Prop where
  announce : snapshot.announce = true
  routePrefix : snapshot.routePrefix = ip.networkText route.routePrefix
  nextHop : snapshot.nextHop = route.nextHop.text
  asSeq : snapshot.asSeq = route.asSeq.map .int
  asSet : snapshot.asSet = route.asSet.map .int
  community : snapshot.community = route.community.map .str

/-- What is found are networks that are asked for, each once, and those in the table are as they are there. -/
structure Tells (table : ip.Network → Option (Route ip)) (asked : ip.Network → Prop)
    (found : List (Text × Snapshot)) : Prop where
  distinct : (found.map Prod.fst).Nodup
  about : ∀ entry ∈ found, ∃ network, asked network ∧ entry.1 = ip.networkText network
  present : ∀ network route, asked network → table network = some route →
    ∃ snapshot, (ip.networkText network, snapshot) ∈ found ∧ snapshot.Shows route
  silent : ∀ network snapshot, table network = none → (ip.networkText network, snapshot) ∈ found →
    snapshot.announce = false

/-- The argument of `RIB.get`. -/
def Rule.prefixText : Rule → Option Text
  | .root => none
  | .network text => some text

def Asked (ip : Ipaddress) : Option Text → ip.Network → Prop
  | none, _ => True
  | some text, network => ip.network? text = some network

/-- The networks that a request is about. -/
def Request.Asks (ip : Ipaddress) (request : Request) (network : ip.Network) : Prop :=
  ∃ rule, matchRule request.path = some rule ∧ Asked ip rule.prefixText network

/-- The peer has a route for an entry just if the entry is announced, and then the one that its dictionary shows. -/
theorem dict_shows (mirrored : Mirrored state) {nlri : NLRI ip} (stored : state.nlri.get? network = some nlri) :
    match peerTable state.output network with
    | some route => (toDict nlri).Shows route
    | none => (toDict nlri).announce = false := by
  obtain ⟨typed, _⟩ := mirrored.entries network nlri stored
  obtain ⟨route, done, _⟩ := typed.route
  rw [mirrored.table network, stored, Option.bind_some, NLRI.published]
  cases announced : nlri.announce with
  | false => exact announced
  | true =>
      rw [if_pos rfl, done]
      have describes := typed.describes done
      exact ⟨announced, congrArg ip.networkText describes.routePrefix.symm,
        congrArg NextHop.text describes.nextHop.symm, describes.asSeq.symm, describes.asSet.symm, describes.community.symm⟩

theorem tells_entries (mirrored : Mirrored state) {asked : ip.Network → Prop} {entries : List (ip.Network × NLRI ip)}
    (part : ∀ network nlri, (network, nlri) ∈ entries ↔ asked network ∧ state.nlri.get? network = some nlri)
    (distinct : (entries.map Prod.fst).Nodup) :
    Tells (peerTable state.output) asked (entries.map fun entry => (ip.networkText entry.1, toDict entry.2)) where
  distinct := by
    have keys := distinct.map networkText_injective
    rw [List.map_map] at keys ⊢
    exact keys
  about := by
    intro entry member
    obtain ⟨⟨network, nlri⟩, listed, rfl⟩ := List.mem_map.mp member
    exact ⟨network, ((part network nlri).mp listed).1, rfl⟩
  present := by
    intro network route among there
    have published := mirrored.table network
    rw [there] at published
    obtain ⟨nlri, stored, _⟩ := Option.bind_eq_some_iff.mp published.symm
    have shown := dict_shows mirrored stored
    rw [there] at shown
    have listed := (part network nlri).mpr ⟨among, stored⟩
    exact ⟨toDict nlri, List.mem_map.mpr ⟨(network, nlri), listed, rfl⟩, shown⟩
  silent := by
    intro network snapshot missing member
    obtain ⟨⟨other, nlri⟩, listed, same⟩ := List.mem_map.mp member
    obtain ⟨text, rfl⟩ := Prod.mk.inj same
    obtain rfl := networkText_injective text
    have quiet := dict_shows mirrored ((part other nlri).mp listed).2
    rw [missing] at quiet
    exact quiet

theorem nlriGet_tells (mirrored : Mirrored state) (prefixText : Option Text) :
    ∃ found, nlriGet prefixText state = ⟨200, .prefixes found⟩ ∧
      Tells (peerTable state.output) (Asked ip prefixText) found := by
  cases prefixText with
  | none =>
      refine ⟨_, rfl, tells_entries mirrored (fun network nlri => ?_) state.nlri.distinct⟩
      constructor
      · exact fun member => ⟨trivial, Dict.get?_of_mem_entries member⟩
      · exact fun both => Dict.mem_entries_of_get? both.2
  | some text =>
      cases parsed : ip.network? text with
      | none =>
          refine ⟨[], by simp [nlriGet, ribGet, parsed], ⟨List.nodup_nil, nofun, ?_, nofun⟩⟩
          intro network route among
          cases parsed.symm.trans among
      | some network =>
          have shown : (ribGet state (some text)).getD [] =
              ((state.nlri.get? network).toList.map fun nlri => (network, nlri)).map
                fun entry => (ip.networkText entry.1, toDict entry.2) := by
            simp [ribGet, parsed]
          refine ⟨_, congrArg (fun found => Response.mk 200 (.prefixes found)) shown,
            tells_entries mirrored (fun other nlri => ?_) ?_⟩
          · constructor
            · intro member
              obtain ⟨stored, listed, same⟩ := List.mem_map.mp member
              obtain ⟨rfl, rfl⟩ := Prod.mk.inj same
              exact ⟨parsed, Option.mem_toList.mp listed⟩
            · intro both
              obtain rfl := Option.some.inj (parsed.symm.trans both.1)
              exact List.mem_map.mpr ⟨nlri, Option.mem_toList.mpr both.2, rfl⟩
          · cases state.nlri.get? network <;> simp

theorem nlriAdd_ok {text : Text} {items : List (QueryKey × Text)} {response : Response} {after : State ip}
    (done : nlriAdd text items state = .ok response after) :
    response.status ≠ 200 ∨ response = nlriGet (some text) after := by
  unfold nlriAdd at done
  rw [Effect.bind_eq] at done
  cases queried : queryOf items with
  | error error =>
      rw [queried] at done
      cases done
  | ok query =>
      rw [queried] at done
      simp only [Effect.ofExcept_ok, Effect.bind_eq] at done
      cases called : ribAdd text items query state with
      | ok _ middle =>
          rw [Effect.attempt_ok called] at done
          cases done
          exact .inr rfl
      | error error middle =>
          rw [Effect.attempt_error called] at done
          cases done
          exact .inl (show 400 ≠ 200 by decide)

theorem nlriDel_ok {text : Text} {response : Response} {after : State ip}
    (done : nlriDel text state = .ok response after) :
    response = nlriGet (some text) after := by
  unfold nlriDel at done
  rw [Effect.bind_eq] at done
  cases called : RIB.remove text state with
  | ok _ middle =>
      rw [called] at done
      cases done
      rfl
  | error error middle =>
      rw [called] at done
      cases done

/-- The answer has no body, whatever the request finds. -/
def HttpMethod.bodiless (method : HttpMethod) : Prop := method = .head ∨ method = .options

/-- The request may change the RIB. -/
def HttpMethod.changes (method : HttpMethod) : Prop := method = .post ∨ method = .put ∨ method = .delete

/-- An answer is a failure, or what a `GET` would find now. -/
theorem handle_cases {request : Request} (shows : ¬ request.method.bodiless) (state : State ip) :
    (handle request state).1.status ≠ 200 ∨
      ∃ rule, matchRule request.path = some rule ∧
        (handle request state).1 = nlriGet rule.prefixText (handle request state).2 := by
  unfold handle view
  cases matched : matchRule request.path with
  | none => exact .inl (show 404 ≠ 200 by decide)
  | some rule =>
      cases rule with
      | root =>
          cases method : request.method with
          | get => exact .inr ⟨.root, rfl, rfl⟩
          | head => exact absurd (.inl method) shows
          | options => exact absurd (.inr method) shows
          | _ => exact .inl (show 405 ≠ 200 by decide)
      | network text =>
          cases method : request.method with
          | get => exact .inr ⟨.network text, rfl, rfl⟩
          | head => exact absurd (.inl method) shows
          | options => exact absurd (.inr method) shows
          | other name => exact .inl (show 405 ≠ 200 by decide)
          | post | put =>
              simp only
              cases done : nlriAdd text request.items state with
              | error error after => exact .inl (show 500 ≠ 200 by decide)
              | ok response after => exact (nlriAdd_ok done).imp_right fun found => ⟨.network text, rfl, found⟩
          | delete =>
              simp only
              cases done : nlriDel text state with
              | error error after => exact .inl (show 500 ≠ 200 by decide)
              | ok response after => exact .inr ⟨.network text, rfl, nlriDel_ok done⟩

theorem handle_elsewhere (mirrored : Mirrored state) {request : Request} (given : request.Given)
    (spared : ¬ request.Asks ip key ∨ ¬ request.method.changes) :
    (handle request state).2.nlri.get? key = state.nlri.get? key := by
  rw [handle_state]
  unfold view
  cases matched : matchRule request.path with
  | none => rfl
  | some rule =>
      cases rule with
      | root => cases request.method <;> rfl
      | network text =>
          have other (changes : request.method.changes) : ip.network? text ≠ some key := fun parsed =>
            spared.elim (fun unasked => unasked ⟨.network text, matched, parsed⟩) fun still => still changes
          cases method : request.method with
          | post => exact nlriAdd_elsewhere mirrored (other (.inl method)) given
          | put => exact nlriAdd_elsewhere mirrored (other (.inr (.inl method))) given
          | delete => exact nlriDel_elsewhere mirrored (other (.inr (.inr method)))
          | _ => rfl

/-- Every answer with status 200 and a body shows the routes that the peer has then for the networks that are asked for,
and no request changes what it has for another network. -/
theorem answers_tell {events : List Event} (given : ∀ event ∈ events, event.Given) {request : Request}
    (also : request.Given) :
    let before := served ip events
    let answer := handle request before
    (answer.1.status = 200 → ¬ request.method.bodiless →
      ∃ found, answer.1.body = .prefixes found ∧ Tells (peerTable answer.2.output) (request.Asks ip) found) ∧
    ∀ network, ¬ request.Asks ip network ∨ ¬ request.method.changes →
      peerTable answer.2.output network = peerTable before.output network := by
  intro before answer
  have mirrored : Mirrored before := mirrored_served given
  have after : Mirrored answer.2 := mirrored_handle mirrored also
  constructor
  · intro fine shows
    rcases handle_cases shows before with failed | ⟨rule, matched, shown⟩
    · exact absurd fine failed
    · obtain ⟨found, got, tells⟩ := nlriGet_tells after rule.prefixText
      have same : answer.1 = ⟨200, .prefixes found⟩ := Eq.trans shown got
      have asked : request.Asks ip = Asked ip rule.prefixText := by
        funext network
        unfold Request.Asks
        simp [matched]
      rw [asked]
      exact ⟨found, congrArg Response.body same, tells⟩
  · intro network spared
    rw [after.table network, mirrored.table network, handle_elsewhere mirrored also spared]

/-- An announcement, and a request whose query is refused. -/
def exampleEvents : List Event :=
  [.received ⟨.post, "/192.0.2.0/24".toList, [(.list .asSeq, "65001".toList)]⟩,
    .received ⟨.put, "/192.0.2.0/24".toList, [(.announce, "maybe".toList)]⟩]

def exampleAsking : Request := ⟨.get, "/192.0.2.0/24".toList, []⟩

theorem answers_tell_example :
    let before := served ipv4 exampleEvents
    let answer := handle exampleAsking before
    (answer.1.status = 200 → ¬ exampleAsking.method.bodiless →
      ∃ found, answer.1.body = .prefixes found ∧ Tells (peerTable answer.2.output) (exampleAsking.Asks ipv4) found) ∧
    ∀ network, ¬ exampleAsking.Asks ipv4 network ∨ ¬ exampleAsking.method.changes →
      peerTable answer.2.output network = peerTable before.output network := by
  refine @answers_tell ipv4 exampleEvents ?_ exampleAsking ?_
  · intro event member
    rcases List.mem_cons.mp member with rfl | member
    · intro query parsed
      cases parsed
      exact List.forall_mem_singleton.mpr fun _ _ => trivial
    · obtain rfl := List.mem_singleton.mp member
      intro query parsed
      cases parsed
  · intro query parsed
    cases parsed
    exact List.forall_mem_nil _

end Answers

end ActiveBgp.Server

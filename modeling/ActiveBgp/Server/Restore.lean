import ActiveBgp.Server.Rest
import ActiveBgp.Rib.Keywords

namespace ActiveBgp.Server

open ActiveBgp.Python ActiveBgp.Rib

variable {ip : Ipaddress} {ω : Type}

/-- The keyword arguments in a dictionary, without its prefix. -/
def Snapshot.kwargs (snapshot : Snapshot) : List Kwarg :=
  [.nextHop (.str snapshot.nextHop), .list .asSeq snapshot.asSeq, .list .asSet snapshot.asSet,
    .list .community snapshot.community, .announce snapshot.announce]

/-- `NLRI.from_dict` -/
def fromDict (methods : Methods ip ω) (snapshot : Snapshot) : Effect ω (NLRI ip) :=
  methods.new (ip.network? snapshot.routePrefix) snapshot.kwargs

/-- Each dictionary becomes an NLRI that is stored under its prefix. -/
def restore : List Snapshot → Effect (State ip) Unit
  | [] => pure ()
  | snapshot :: rest => do
      let nlri ← Effect.within State.output (fun output state => { state with output })
        (fromDict (printing ip) snapshot)
      modify fun state => { state with nlri := state.nlri.set nlri.routePrefix nlri }
      restore rest

section Entry

variable {nlri : NLRI ip}

theorem check_stored_self {name : ListName} {value : Value} (stored : name.Stored value) :
    name.check value = .ok value := by
  have asn (isAsn : value.IsAsn) : asListCheck value = .ok value := by
    obtain ⟨number, rfl, lower, upper⟩ := isAsn
    simp only [asListCheck, Value.toInt]
    rw [if_neg (by omega)]
  cases name with
  | asSeq => exact asn stored
  | asSet => exact asn stored
  | community =>
      obtain ⟨text, rfl, _, accepted⟩ := stored
      exact accepted

theorem bgpList_self {name : ListName} {items : List Value} (stored : ∀ value ∈ items, name.Stored value) :
    bgpList name.check items = .ok items := by
  have kept : bgpList name.check (items.map id) = .ok items :=
    bgpList_map fun value member => check_stored_self (stored value member)
  rwa [List.map_id] at kept

theorem read_text (hop : NextHop ip) : NextHop.read ip (.str hop.text) = some hop := by
  cases hop with
  | self => simp [NextHop.read, NextHop.text]
  | address host =>
      have named : Value.str (NextHop.address host).text ≠ .str "self".toList := fun same =>
        (ip.str_plain host).2.2 (Value.str.inj same)
      rw [NextHop.read, if_neg named, NextHop.text, ip.address?_print]
      rfl

/-- What `to_dict` shows is accepted, and means the entry itself. -/
theorem toDict_kwargs (typed : nlri.WellTyped) :
    (∀ kwarg ∈ (toDict nlri).kwargs, kwarg.Valid ip) ∧
      Takes (toDict nlri).kwargs (NLRI.fresh nlri.routePrefix) nlri := by
  have built (name : ListName) : bgpList name.check (nlri.list name) = .ok (nlri.list name) :=
    bgpList_self (typed.list name)
  have colons : ∀ value ∈ nlri.community, ∃ text, value = .str text ∧ ':' ∈ text := fun value member => by
    obtain ⟨text, rfl, colon, _⟩ := typed.community value member
    exact ⟨text, rfl, colon⟩
  refine ⟨?_, ?_, ?_, ?_, ?_, rfl⟩
  · intro kwarg member
    simp only [toDict, Snapshot.kwargs, List.mem_cons, List.not_mem_nil, or_false] at member
    rcases member with rfl | rfl | rfl | rfl | rfl
    · exact (congrArg Option.isSome (read_text nlri.nextHop)).trans rfl
    · exact ⟨⟨_, built .asSeq⟩, nofun⟩
    · exact ⟨⟨_, built .asSet⟩, nofun⟩
    · exact ⟨⟨_, built .community⟩, fun _ => colons⟩
    · trivial
  · intro kwarg member
    simp only [toDict, Snapshot.kwargs, List.mem_cons, List.not_mem_nil, or_false] at member
    rcases member with rfl | rfl | rfl | rfl | rfl
    · exact read_text nlri.nextHop
    · exact built .asSeq
    · exact built .asSet
    · exact built .community
    · rfl
  · exact fun absent => absurd (by simp [Snapshot.kwargs, toDict]) (absent (.str nlri.nextHop.text))
  · intro name absent
    refine absurd ?_ (absent (nlri.list name))
    cases name <;> simp [Snapshot.kwargs, toDict, NLRI.list]
  · exact fun absent => absurd (by simp [Snapshot.kwargs, toDict]) (absent nlri.announce)

theorem construct_toDict (typed : nlri.WellTyped) :
    NLRI.construct nlri.routePrefix (toDict nlri).kwargs = .ok nlri := by
  obtain ⟨valid, takes⟩ := toDict_kwargs typed
  have distinct : ((toDict nlri).kwargs.map Kwarg.name).Nodup := by
    have names : (toDict nlri).kwargs.map Kwarg.name =
        ["next_hop".toList, "as_seq".toList, "as_set".toList, "community".toList, "announce".toList] := rfl
    rw [names]
    decide
  obtain ⟨other, built, otherTakes⟩ := takes_construct valid distinct nlri.routePrefix
  rw [built, otherTakes.unique takes]

end Entry

section States

variable {state : State ip} {network : ip.Network} {nlri : NLRI ip}

/-- Restoring an entry that is missing stores it and tells the peer. -/
theorem restore_cons (mirrored : Mirrored state) (typed : nlri.WellTyped) (atNetwork : nlri.routePrefix = network)
    (missing : state.nlri.get? network = none) (rest : List Snapshot) :
    ∃ output, restore (toDict nlri :: rest) state =
        restore rest { state with nlri := state.nlri.set network nlri, output } ∧
      Mirrored { state with nlri := state.nlri.set network nlri, output } := by
  subst atNetwork
  have given : ∀ kwarg ∈ (toDict nlri).kwargs, kwarg.Given := fun kwarg member =>
    ((toDict_kwargs typed).1 kwarg member).given
  have created := mirrored.created missing given
  rw [construct_toDict typed] at created
  obtain ⟨output, done, shown⟩ := created
  have parsed : ip.network? (toDict nlri).routePrefix = some nlri.routePrefix := ip.network?_print nlri.routePrefix
  refine ⟨output, ?_, mirrored.store shown⟩
  simp only [restore, fromDict, parsed, Effect.bind_eq, Effect.within, done, Effect.modify_apply]

theorem restore_entries (mirrored : Mirrored state) {entries : List (ip.Network × NLRI ip)}
    (typed : ∀ entry ∈ entries, entry.2.WellTyped ∧ entry.2.routePrefix = entry.1)
    (distinct : (state.nlri.keys ++ entries.map Prod.fst).Nodup) :
    ∃ restored, restore (entries.map fun entry => toDict entry.2) state = .ok () restored ∧
      Mirrored restored ∧ restored.nlri.entries = state.nlri.entries ++ entries := by
  induction entries generalizing state with
  | nil => exact ⟨state, rfl, mirrored, (List.append_nil _).symm⟩
  | cons first rest ih =>
      obtain ⟨network, nlri⟩ := first
      obtain ⟨wellTyped, atNetwork⟩ := typed _ (List.mem_cons_self)
      have absent : network ∉ state.nlri.keys := fun member =>
        (List.nodup_append.mp distinct).2.2 network member network (by simp) rfl
      have missing : state.nlri.get? network = none := by simpa [Dict.mem_keys_iff] using absent
      obtain ⟨output, step, now⟩ := restore_cons mirrored wellTyped atNetwork missing
        (rest.map fun entry => toDict entry.2)
      have stored := Dict.entries_set state.nlri absent nlri
      obtain ⟨restored, done, last, entries⟩ := ih now (fun entry member => typed entry (by simp [member]))
        (by simpa [Dict.keys, stored] using distinct)
      refine ⟨restored, by rw [List.map_cons, step, done], last, ?_⟩
      rw [entries, stored, List.append_assoc]
      rfl

/-- A RIB that is restored from all of its dictionaries shows them again, and what
was printed for it are the announcements of its announced entries. -/
theorem restore_snapshot {steps : List (Step ip)} (given : ∀ step ∈ steps, step.Given) :
    let state := run steps (State.empty ip)
    ∃ found restored, ribGet state none = some found ∧
      restore (found.map Prod.snd) (State.empty ip) = .ok () restored ∧
      ribGet restored none = some found ∧
      ∀ network route, peerTable restored.output network = some route ↔
        ∃ nlri, state.nlri.get? network = some nlri ∧ nlri.announce = true ∧ nlri.route = .ok route := by
  intro state
  have mirrored : Mirrored state := mirrored_run given
  have typed : ∀ entry ∈ state.nlri.entries, entry.2.WellTyped ∧ entry.2.routePrefix = entry.1 := fun entry member =>
    mirrored.entries entry.1 entry.2 (Dict.get?_of_mem_entries member)
  obtain ⟨restored, done, last, entries⟩ := restore_entries mirrored_empty typed
    (by simpa [State.empty, Dict.empty, Dict.keys] using state.nlri.distinct)
  have same : restored.nlri.entries = state.nlri.entries := entries
  refine ⟨_, restored, rfl, by rw [List.map_map]; exact done, by simp only [ribGet, same], fun network route => ?_⟩
  have lookup : restored.nlri.get? network = state.nlri.get? network := by simp only [Dict.get?, same]
  rw [last.table network, lookup, Option.bind_eq_some_iff]
  refine exists_congr fun nlri => and_congr_right fun _ => ?_
  cases announced : nlri.announce <;> cases rendered : nlri.route <;>
    simp [NLRI.published, announced, rendered, Except.toOption]

end States

theorem restore_snapshot_example :
    let state := run exampleSteps (State.empty ipv4)
    ∃ found restored, ribGet state none = some found ∧
      restore (found.map Prod.snd) (State.empty ipv4) = .ok () restored ∧
      ribGet restored none = some found ∧
      ∀ network route, peerTable restored.output network = some route ↔
        ∃ nlri, state.nlri.get? network = some nlri ∧ nlri.announce = true ∧ nlri.route = .ok route :=
  restore_snapshot (by simp [exampleSteps, Step.Given, Kwarg.Given, ListOp.Given, ListName.Given, Value.Colon])

end ActiveBgp.Server

import ActiveBgp.Rib.Table

namespace ActiveBgp.Rib

open ActiveBgp.Python ActiveBgp.Data

variable {ip : Ipaddress}

/-- The peer holds exactly the announced entries, as they are now, and was never
told to withdraw what it did not hold. -/
structure Mirrored (state : State ip) : Prop where
  entries : ∀ network nlri, state.nlri.get? network = some nlri →
    nlri.WellTyped ∧ nlri.routePrefix = network
  table : ∀ network, peerTable state.output network = (state.nlri.get? network).bind NLRI.published
  effective : Effective (state.output.map Command.update)
  detached : ∀ nlri ∈ state.detached, nlri.announce = false

section Entry

variable (network : ip.Network) (others : ip.Network → Option (Route ip))

/-- The peer shows the object under `network`, and `others` elsewhere. -/
structure Shown (object : Object ip (List (Command ip))) : Prop where
  typed : object.nlri.WellTyped
  routePrefix : object.nlri.routePrefix = network
  table : ∀ key, peerTable object.world key = if key = network then object.nlri.published else others key
  effective : Effective (object.world.map Command.update)

/-- The peer has some route under `network` just when the object is announced. -/
structure Stale (object : Object ip (List (Command ip))) : Prop where
  typed : object.nlri.WellTyped
  routePrefix : object.nlri.routePrefix = network
  present : (peerTable object.world network).isSome = object.nlri.announce
  table : ∀ key, key ≠ network → peerTable object.world key = others key
  effective : Effective (object.world.map Command.update)

variable {network others}

theorem Shown.present {object : Object ip (List (Command ip))} (shown : Shown network others object) :
    (peerTable object.world network).isSome = object.nlri.announce := by
  rw [shown.table network, if_pos rfl]
  exact NLRI.published_isSome shown.typed

/-- Announcing an object whose flag is set shows it, whatever the peer had before. -/
theorem shown_announce {nlri : NLRI ip} {output : List (Command ip)} (typed : nlri.WellTyped)
    (atNetwork : nlri.routePrefix = network) (announced : nlri.announce = true)
    (table : ∀ key, key ≠ network → peerTable output key = others key)
    (effective : Effective (output.map Command.update)) :
    ∃ after, (printing ip).doAnnounce nlri output = .ok () after ∧ Shown network others ⟨nlri, after⟩ := by
  obtain ⟨route, done, same⟩ := typed.route
  refine ⟨_, printing_announce announced done output, typed, atNetwork, ?_, ?_⟩
  · intro key
    rw [peerTable_announce, same, atNetwork]
    split
    · simp [NLRI.published, announced, done, Except.toOption]
    · rename_i different
      exact table key different
  · simpa [Command.update] using effective.assign route.routePrefix route

theorem printing_observer (network : ip.Network) (others : ip.Network → Option (Route ip)) :
    Observer (printing ip) (Shown network others) (Stale network others) where
  typed _ shown := shown.typed
  revise object nlri shown revision := {
    typed := revision.typed
    routePrefix := revision.routePrefix.trans shown.routePrefix
    present := by rw [shown.present, revision.announce]
    table := fun key different => by rw [shown.table key, if_neg different]
    effective := shown.effective }
  notify object stale := by
    cases announced : object.nlri.announce with
    | true => exact shown_announce stale.typed stale.routePrefix announced stale.table stale.effective
    | false =>
        refine ⟨_, printing_quiet announced _, stale.typed, stale.routePrefix, ?_, stale.effective⟩
        intro key
        split
        · rename_i same
          have absent : (peerTable object.world network).isSome = false := by
            rw [stale.present, announced]
          subst same
          simpa [NLRI.published, announced] using absent
        · rename_i different
          exact stale.table key different
  announce object shown quiet :=
    shown_announce ⟨shown.typed.community, shown.typed.asSeq, shown.typed.asSet⟩ shown.routePrefix rfl
      (fun key different => by rw [shown.table key, if_neg different]) shown.effective
  withdraw object shown announced := by
    have typed : ({ object.nlri with announce := false } : NLRI ip).WellTyped :=
      ⟨shown.typed.community, shown.typed.asSeq, shown.typed.asSet⟩
    obtain ⟨route, done, same⟩ := typed.route
    have atNetwork : route.routePrefix = network := same.trans shown.routePrefix
    refine ⟨_, printing_withdraw rfl done _, typed, shown.routePrefix, ?_, ?_⟩
    · intro key
      rw [peerTable_withdraw, atNetwork]
      split
      · rfl
      · rename_i different
        rw [shown.table key, if_neg different]
    · have present : (peerTable object.world route.routePrefix).isSome = true := by
        rw [atNetwork, shown.present, announced]
      simpa [Command.update] using shown.effective.delete present

end Entry

theorem Mirrored.shown {state : State ip} (mirrored : Mirrored state) {network : ip.Network}
    {nlri : NLRI ip} (found : state.nlri.get? network = some nlri) :
    Shown network (peerTable state.output) ⟨nlri, state.output⟩ := by
  obtain ⟨typed, same⟩ := mirrored.entries network nlri found
  refine ⟨typed, same, ?_, mirrored.effective⟩
  intro key
  split
  · rename_i atNetwork
    rw [atNetwork, mirrored.table network, found]
    rfl
  · rfl

theorem Mirrored.store {state : State ip} (mirrored : Mirrored state) {network : ip.Network}
    {object : Object ip (List (Command ip))}
    (shown : Shown network (peerTable state.output) object) :
    Mirrored { state with nlri := state.nlri.set network object.nlri, output := object.world } where
  entries key nlri found := by
    rw [Dict.get?_set] at found
    split at found
    · rename_i same
      cases found
      exact ⟨shown.typed, same ▸ shown.routePrefix⟩
    · exact mirrored.entries key nlri found
  table key := by
    rw [shown.table key, Dict.get?_set]
    by_cases same : key = network
    · simp [same]
    · rw [if_neg same, if_neg (Ne.symm same), mirrored.table key]
  effective := shown.effective
  detached := mirrored.detached

theorem RIB.onEntry_ok {state : State ip} {network : ip.Network} {nlri : NLRI ip}
    {call : Effect (Object ip (List (Command ip))) Unit} {object : Object ip (List (Command ip))}
    (found : state.nlri.get? network = some nlri) (done : call ⟨nlri, state.output⟩ = .ok () object) :
    RIB.onEntry network call state =
      .ok () { state with nlri := state.nlri.set network object.nlri, output := object.world } := by
  simp [RIB.onEntry, found, done]

theorem Mirrored.onEntry {state : State ip} (mirrored : Mirrored state) {network : ip.Network}
    {call : Effect (Object ip (List (Command ip))) Unit}
    (keeps : ∀ others object, Shown network others object → Shown network others (final (call object))) :
    Mirrored (final (RIB.onEntry network call state)) := by
  unfold RIB.onEntry
  cases found : state.nlri.get? network with
  | none => exact mirrored
  | some nlri =>
      have shown := keeps _ _ (mirrored.shown found)
      cases outcome : call ⟨nlri, state.output⟩ with
      | ok value object =>
          rw [outcome] at shown
          simpa [outcome] using mirrored.store shown
      | error error object =>
          rw [outcome] at shown
          simpa [outcome] using mirrored.store shown

theorem Mirrored.setattr {state : State ip} (mirrored : Mirrored state) (network : ip.Network)
    {kwarg : Kwarg} (given : kwarg.Given) :
    Mirrored (final (RIB.onEntry network ((printing ip).setattr kwarg) state)) :=
  mirrored.onEntry fun others _ shown => (printing_observer network others).synced_setattr shown given

theorem Mirrored.setattrs {state : State ip} (mirrored : Mirrored state) (network : ip.Network)
    {kwargs : List Kwarg} (given : ∀ kwarg ∈ kwargs, kwarg.Given) :
    Mirrored (final (RIB.setattrs network kwargs state)) := by
  induction kwargs generalizing state with
  | nil => exact mirrored
  | cons kwarg rest ih =>
      have first := mirrored.setattr network (given kwarg (by simp))
      rw [RIB.setattrs, Effect.bind_eq]
      cases outcome : RIB.onEntry network ((printing ip).setattr kwarg) state with
      | error error after => simpa [outcome] using first
      | ok value after =>
          rw [outcome] at first
          exact ih first fun later member => given later (by simp [member])

theorem Mirrored.created {state : State ip} (mirrored : Mirrored state) {network : ip.Network}
    (missing : state.nlri.get? network = none) {kwargs : List Kwarg}
    (given : ∀ kwarg ∈ kwargs, kwarg.Given) :
    match NLRI.construct network kwargs with
    | .ok nlri => ∃ output, (printing ip).new (some network) kwargs state.output = .ok nlri output ∧
        Shown network (peerTable state.output) ⟨nlri, output⟩
    | .error error => (printing ip).new (some network) kwargs state.output = .error error state.output :=
  (printing_observer network (peerTable state.output)).new
    (fun nlri typed quiet same => ⟨typed, same, fun key => by
      split
      · rename_i atNetwork
        rw [atNetwork, mirrored.table network, missing]
        simp [NLRI.published, quiet]
      · rfl, mirrored.effective⟩) given

theorem Mirrored.add {state : State ip} (mirrored : Mirrored state) (text : Text)
    {kwargs : List Kwarg} (given : ∀ kwarg ∈ kwargs, kwarg.Given) :
    Mirrored (final (RIB.add text kwargs state)) := by
  unfold RIB.add
  cases parsed : ip.network? text with
  | none => exact mirrored
  | some network =>
      simp only [Effect.bind_eq, Effect.get_apply]
      split
      · exact mirrored.setattrs network given
      · rename_i absent
        have missing : state.nlri.get? network = none := by
          simpa [Dict.mem_keys_iff] using absent
        have created := mirrored.created missing given
        simp only [Effect.bind_eq, Effect.within]
        cases built : NLRI.construct network kwargs with
        | error error =>
            rw [built] at created
            simpa [created] using mirrored
        | ok nlri =>
            rw [built] at created
            obtain ⟨output, done, shown⟩ := created
            have atNetwork : nlri.routePrefix = network := shown.routePrefix
            simpa [done, atNetwork] using mirrored.store shown

/-- The entry that `RIB.add` leaves under the prefix when it succeeds: the old entry
with the arguments assigned in order, or a newly constructed one. -/
def added (old : Option (NLRI ip)) (network : ip.Network) (kwargs : List Kwarg) :
    Except PyError (NLRI ip) :=
  match old with
  | some nlri => kwargs.foldlM NLRI.assign nlri
  | none => NLRI.construct network kwargs

theorem Mirrored.setattrs_ok {state : State ip} (mirrored : Mirrored state) {network : ip.Network}
    {nlri after : NLRI ip} (found : state.nlri.get? network = some nlri) {kwargs : List Kwarg}
    (given : ∀ kwarg ∈ kwargs, kwarg.Given) (assigned : kwargs.foldlM NLRI.assign nlri = .ok after) :
    ∃ last, RIB.setattrs network kwargs state = .ok () last ∧ last.nlri.get? network = some after ∧
      ∀ key, key ≠ network → last.nlri.get? key = state.nlri.get? key := by
  induction kwargs generalizing state nlri with
  | nil =>
      cases assigned
      exact ⟨state, rfl, found, fun _ _ => rfl⟩
  | cons kwarg rest ih =>
      rw [List.foldlM_cons] at assigned
      have outcome := (printing_observer network (peerTable state.output)).setattr
        (mirrored.shown found) (given kwarg (by simp))
      cases first : nlri.assign kwarg with
      | error error => simp [first, except_bind_error] at assigned
      | ok next =>
          simp only [first] at outcome
          rw [first, except_bind_ok] at assigned
          obtain ⟨output, done, shown⟩ := outcome
          obtain ⟨last, ended, atNetwork, elsewhere⟩ := ih (mirrored.store shown) (Dict.get?_set_self _ _ _)
            (fun later member => given later (by simp [member])) assigned
          refine ⟨last, ?_, atNetwork, fun key different => ?_⟩
          · rw [RIB.setattrs, Effect.bind_eq, RIB.onEntry_ok found done]
            exact ended
          · rw [elsewhere key different]
            exact Dict.get?_set_ne _ _ (Ne.symm different)

theorem Mirrored.add_ok {state : State ip} (mirrored : Mirrored state) {text : Text}
    {network : ip.Network} (parsed : ip.network? text = some network) {kwargs : List Kwarg}
    (given : ∀ kwarg ∈ kwargs, kwarg.Given) {after : NLRI ip}
    (succeeds : added (state.nlri.get? network) network kwargs = .ok after) :
    ∃ last, RIB.add text kwargs state = .ok () last ∧ last.nlri.get? network = some after ∧
      ∀ key, key ≠ network → last.nlri.get? key = state.nlri.get? key := by
  unfold RIB.add
  simp only [parsed, Effect.bind_eq, Effect.get_apply]
  cases found : state.nlri.get? network with
  | some nlri =>
      rw [found] at succeeds
      have present : network ∈ state.nlri.keys := (Dict.mem_keys_iff _ _).mpr (by simp [found])
      rw [if_pos present]
      exact mirrored.setattrs_ok found given succeeds
  | none =>
      rw [found] at succeeds
      have absent : network ∉ state.nlri.keys := by simp [Dict.mem_keys_iff, found]
      have created := mirrored.created found given
      simp only [show NLRI.construct network kwargs = .ok after from succeeds] at created
      obtain ⟨output, done, shown⟩ := created
      have atNetwork : after.routePrefix = network := shown.routePrefix
      rw [if_neg absent]
      refine ⟨{ state with nlri := state.nlri.set network after, output }, ?_, Dict.get?_set_self _ _ _,
        fun key different => Dict.get?_set_ne _ _ (Ne.symm different)⟩
      simp [Effect.bind_eq, Effect.within, done, atNetwork]

theorem Mirrored.remove {state : State ip} (mirrored : Mirrored state) (text : Text) :
    Mirrored (final (RIB.remove text state)) := by
  unfold RIB.remove
  cases parsed : ip.network? text with
  | none => exact mirrored
  | some network =>
      simp only [Effect.bind_eq, Effect.get_apply]
      split
      · rename_i present
        obtain ⟨nlri, found⟩ := Option.isSome_iff_exists.mp ((Dict.mem_keys_iff _ _).mp present)
        obtain ⟨object, done, shown, same⟩ := (printing_observer network (peerTable state.output)).setAnnounce
          (mirrored.shown found) false
        have withdrawn := mirrored.store shown
        have called := RIB.onEntry_ok found done
        simp only [Effect.bind_eq, called]
        refine ⟨?_, ?_, withdrawn.effective, ?_⟩
        · intro key entry stored
          simp only [Effect.modify_apply, final_ok, Dict.get?_erase] at stored
          split at stored
          · contradiction
          · exact withdrawn.entries key entry stored
        · intro key
          simp only [Effect.modify_apply, final_ok, Dict.get?_erase]
          by_cases atNetwork : network = key
          · subst atNetwork
            simpa [NLRI.published, same] using shown.table network
          · rw [if_neg atNetwork]
            exact withdrawn.table key
        · intro entry member
          simp only [Effect.modify_apply, final_ok, Dict.get?_set_self, Option.toList_some,
            List.mem_append, List.mem_singleton] at member
          rcases member with old | rfl
          · exact mirrored.detached entry old
          · rw [same]
      · exact mirrored

theorem Mirrored.remove_ok {state : State ip} (mirrored : Mirrored state) {text : Text}
    {network : ip.Network} (parsed : ip.network? text = some network) :
    ∃ last, RIB.remove text state = .ok () last ∧ last.nlri.get? network = none ∧
      ∀ key, key ≠ network → last.nlri.get? key = state.nlri.get? key := by
  unfold RIB.remove
  simp only [parsed, Effect.bind_eq, Effect.get_apply]
  cases found : state.nlri.get? network with
  | none =>
      have absent : network ∉ state.nlri.keys := by simp [Dict.mem_keys_iff, found]
      rw [if_neg absent]
      exact ⟨state, rfl, found, fun _ _ => rfl⟩
  | some nlri =>
      have present : network ∈ state.nlri.keys := (Dict.mem_keys_iff _ _).mpr (by simp [found])
      obtain ⟨object, done, _, _⟩ := (printing_observer network (peerTable state.output)).setAnnounce
        (mirrored.shown found) false
      have called := RIB.onEntry_ok found done
      rw [if_pos present]
      simp only [Effect.bind_eq, called, Effect.modify_apply]
      refine ⟨_, rfl, ?_, fun key different => ?_⟩
      · simp [Dict.get?_erase]
      · simp [Dict.get?_erase, Dict.get?_set, Ne.symm different]

/-- A removed entry is no longer announced, so its finaliser has nothing to withdraw. -/
theorem Mirrored.finalise {state : State ip} (mirrored : Mirrored state) (index : Nat) :
    Mirrored (final (RIB.finalise index state)) := by
  unfold RIB.finalise
  cases found : state.detached[index]? with
  | none => exact mirrored
  | some nlri =>
      have quiet := mirrored.detached nlri (List.mem_of_getElem? found)
      have nothing : (printing ip).setAnnounce false ⟨nlri, state.output⟩ = .ok () ⟨nlri, state.output⟩ := by
        simp [Methods.setAnnounce, Effect.bind_eq, quiet]
      simp only [nothing, final_ok]
      exact ⟨mirrored.entries, mirrored.table, mirrored.effective,
        fun entry member => mirrored.detached entry (List.mem_of_mem_eraseIdx member)⟩

theorem mirrored_empty : Mirrored (State.empty ip) :=
  ⟨fun _ _ found => by simp [State.empty] at found, fun _ => rfl, chronicle_nil,
    fun _ member => by simp [State.empty] at member⟩

end ActiveBgp.Rib

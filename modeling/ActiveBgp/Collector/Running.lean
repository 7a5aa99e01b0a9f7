import ActiveBgp.Collector.Messages

namespace ActiveBgp.Collector

open ActiveBgp.Python ActiveBgp.Data

variable {setupBgpstream : Text → Except PyError Unit} {state : BGPCollector} {message : Message}

/-- The running processes are those in the dictionary. -/
def Exact (state : BGPCollector) : Prop :=
  ∀ process, process ∈ state.running ↔ ∃ id, state.collectors.get? id = some process

/-- The message does not start a collector under an id that has a collector. -/
def Fresh (state : BGPCollector) (message : Message) : Prop :=
  ∀ sentTime collectorId routePrefix outputFile, message = .startCollector sentTime collectorId routePrefix →
    fullCollectorId sentTime collectorId = .ok outputFile → collectorId ∉ state.collectors.keys

def step (setupBgpstream : Text → Except PyError Unit) (state : BGPCollector) (message : Message) :
    Option BGPCollector :=
  some (final (processMessage setupBgpstream message state))

theorem Sound.step (sound : Sound state) (message : Message) :
    Sound (final (processMessage setupBgpstream message state)) := by
  rcases processMessage_cases setupBgpstream sound message with
    same | ⟨_, id, _, _, _, ascii, _, done⟩ | ⟨id, process, _, found, done⟩ | ⟨_, done⟩
  · rw [same]
    exact sound
  · rw [done]
    exact sound.launch ascii _ _
  · rw [done]
    exact sound.finish found
  · rw [done]
    exact sound.clear

theorem invariant_monitorCollectors {inv : BGPCollector → Prop}
    (preserved : ∀ state message, inv state → inv (final (processMessage setupBgpstream message state)))
    (messages : List Message) (initial : inv state) : inv (final (monitorCollectors setupBgpstream messages state)) := by
  induction messages generalizing state with
  | nil => exact initial
  | cons message rest ih =>
      have now := preserved state message initial
      rw [monitorCollectors, Effect.bind_eq]
      cases handled : processMessage setupBgpstream message state with
      | error error after => simpa [handled] using now
      | ok value after => exact ih (by simpa [handled] using now)

theorem exact_new : Exact .new := fun process => by simp [BGPCollector.new]

theorem Exact.running_clear (exact : Exact state) : state.clear.running = [] := by
  refine List.filter_eq_nil_iff.mpr fun process member => ?_
  obtain ⟨id, found⟩ := (exact process).mp member
  simpa using Dict.mem_values found

theorem Exact.clear (exact : Exact state) : Exact state.clear := fun process => by
  rw [exact.running_clear]
  simp [BGPCollector.clear]

theorem Exact.finish (exact : Exact state) (sound : Sound state) {collectorId : Text} {ended : Process}
    (found : state.collectors.get? collectorId = some ended) : Exact (state.finish collectorId ended) := by
  intro process
  simp only [BGPCollector.finish, List.mem_filter, decide_eq_true_eq, exact process, Dict.get?_erase]
  constructor
  · intro other
    obtain ⟨⟨id, inDict⟩, different⟩ := other
    have elsewhere : collectorId ≠ id := fun same => different (by simpa [← same, found, eq_comm] using inDict)
    exact ⟨id, by rw [if_neg elsewhere, inDict]⟩
  · intro stored
    obtain ⟨id, inDict⟩ := stored
    split at inDict
    · contradiction
    · rename_i elsewhere
      exact ⟨⟨id, inDict⟩, fun same => elsewhere (sound.once collectorId id ended found (same ▸ inDict))⟩

/-- A collector that is started keeps the dictionary exact only under a new id. -/
theorem Exact.launch_iff (exact : Exact state) (sound : Sound state) (collectorId outputFile routePrefix : Text) :
    Exact (state.launch collectorId outputFile routePrefix) ↔ collectorId ∉ state.collectors.keys := by
  have young {process : Process} (member : process ∈ state.running) :
      process ≠ ⟨state.started, outputFile, routePrefix⟩ := by
    intro same
    have bound := sound.old process member
    rw [same] at bound
    exact Nat.lt_irrefl _ bound
  simp only [Exact, BGPCollector.launch, List.mem_append, List.mem_singleton, Dict.get?_set]
  constructor
  · intro after member
    obtain ⟨old, found⟩ := Option.isSome_iff_exists.mp ((Dict.mem_keys_iff _ _).mp member)
    have running := sound.stored collectorId old found
    obtain ⟨id, inDict⟩ := (after old).mp (.inl running)
    split at inDict
    · cases inDict
      exact young running rfl
    · rename_i elsewhere
      exact elsewhere (sound.once collectorId id old found inDict)
  · intro absent process
    have none : state.collectors.get? collectorId = Option.none := by simpa [Dict.mem_keys_iff] using absent
    constructor
    · intro running
      rcases running with earlier | last
      · obtain ⟨id, found⟩ := (exact process).mp earlier
        have elsewhere : collectorId ≠ id := fun same => by simp [← same, none] at found
        exact ⟨id, by rw [if_neg elsewhere, found]⟩
      · exact ⟨collectorId, by rw [if_pos rfl, last]⟩
    · intro stored
      obtain ⟨id, found⟩ := stored
      split at found
      · cases found
        exact .inr rfl
      · exact .inl ((exact process).mpr ⟨id, found⟩)

theorem Exact.running_endAll (exact : Exact state) (sound : Sound state) :
    (final (processMessage setupBgpstream (.endCollector "ALL".toList) state)).running = [] := by
  simp only [processMessage, if_true, endCollector, Effect.bind_eq, Effect.get_apply]
  split
  · rename_i empty
    refine List.eq_nil_iff_forall_not_mem.mpr fun process member => ?_
    obtain ⟨id, found⟩ := (exact process).mp member
    simpa [Dict.values, empty] using Dict.mem_values found
  · rw [endEach_eq rfl sound.ascii]
    exact exact.running_clear

section Step

variable (works : ∀ routePrefix, setupBgpstream routePrefix = .ok ())

include works

theorem exact_step_iff (exact : Exact state) (sound : Sound state) (message : Message) :
    Exact (final (processMessage setupBgpstream message state)) ↔ Fresh state message := by
  rcases processMessage_cases setupBgpstream sound message with
    same | ⟨sentTime, id, routePrefix, outputFile, rfl, _, named, done⟩ | ⟨id, process, rfl, found, done⟩ | ⟨rfl, done⟩
  · rw [same]
    refine iff_of_true exact ?_
    -- Nothing happened, so the message is not one that starts a collector.
    intro sentTime id routePrefix outputFile start named
    subst start
    simp [processMessage, startCollector, Effect.bind_eq, named, works, BGPCollector.launch] at same
    have count := congrArg BGPCollector.started same
    simp at count
  · rw [done, final_ok, exact.launch_iff sound]
    constructor
    · intro absent otherTime otherId otherPrefix otherFile start _
      cases start
      exact absent
    · intro fresh
      exact fresh _ _ _ _ rfl named
  · rw [done]
    exact iff_of_true (exact.finish sound found) fun _ _ _ _ start => by cases start
  · rw [done]
    exact iff_of_true exact.clear fun _ _ _ _ start => by cases start

end Step

section Runs

variable {history : List (BGPCollector × Message)} {last : BGPCollector}
  (run : Run (step setupBgpstream) .new history last)

include run

theorem sound_run : Throughout Sound history last := by
  have preserved (state : BGPCollector) (message : Message) (after : BGPCollector) (sound : Sound state) (_ : True)
      (done : step setupBgpstream state message = some after) : Sound after := by
    cases done
    exact sound.step message
  exact run.invariant sound_new preserved fun _ _ => trivial

variable (works : ∀ routePrefix, setupBgpstream routePrefix = .ok ())

include works

theorem exact_run_iff : Throughout Exact history last ↔ ∀ moment ∈ history, Fresh moment.1 moment.2 := by
  induction run with
  | nil => simp [Throughout, exact_new]
  | @snoc history state after earlier message done ih =>
      cases done
      have sound := (sound_run earlier).2
      constructor
      · intro all moment member
        have before := all.of_snoc
        rcases List.mem_append.mp member with old | new
        · exact ih.mp before moment old
        · rw [List.mem_singleton.mp new]
          exact (exact_step_iff works before.2 sound message).mp all.2
      · intro fresh
        have before := ih.mpr fun moment member => fresh moment (by simp [member])
        exact before.snoc message ((exact_step_iff works before.2 sound message).mpr (fresh (state, message) (by simp)))

/-- After every message the running processes are the stored ones, and none runs after an
end of all collectors, exactly if no collector is started under an id in use. -/
theorem collectors_running_iff :
    (Throughout Exact history last ∧ ∀ state, (state, .endCollector "ALL".toList) ∈ history →
      (final (processMessage setupBgpstream (.endCollector "ALL".toList) state)).running = []) ↔
      ∀ moment ∈ history, Fresh moment.1 moment.2 := by
  rw [← exact_run_iff run works]
  refine and_iff_left_of_imp fun exact state member => ?_
  exact (exact.1 _ member).running_endAll ((sound_run run).1 _ member)

end Runs

section Example

def exampleStart (id : String) : Message := .startCollector "1".toList id.toList "208.45.214.0/24".toList

/-- The first process of an id that is started twice outlives an end of all collectors. -/
theorem restarted_collector_lost : ∃ history last,
    Run (step fun _ => .ok ()) .new history last ∧
      history.map Prod.snd = [exampleStart "a", exampleStart "a", .endCollector "ALL".toList] ∧
      ¬ Exact last ∧ last.running ≠ [] := by
  have left : ([exampleStart "a", exampleStart "a", .endCollector "ALL".toList].foldlM (step fun _ => .ok ())
      BGPCollector.new).any (fun last => last.running.length = 1 ∧ last.collectors.entries = []) = true := by
    decide +kernel
  obtain ⟨last, reached, counted⟩ := (Option.any_eq_true _ _).mp left
  obtain ⟨one, empty⟩ : last.running.length = 1 ∧ last.collectors.entries = [] := by simpa using counted
  obtain ⟨history, run, events⟩ := Run.of_foldlM reached
  obtain ⟨process, alone⟩ := List.length_eq_one_iff.mp one
  refine ⟨history, last, run, events, fun exact => ?_, by simp [alone]⟩
  obtain ⟨id, found⟩ := (exact process).mp (by simp [alone])
  simpa [Dict.values, empty] using Dict.mem_values found

theorem collectors_running_iff_example : ∃ history last,
    history.map Prod.snd = [exampleStart "a", exampleStart "b", .endCollector "a".toList, exampleStart "a",
      .endCollector "ALL".toList] ∧
    ((Throughout Exact history last ∧ ∀ state, (state, .endCollector "ALL".toList) ∈ history →
      (final (processMessage (fun _ => .ok ()) (.endCollector "ALL".toList) state)).running = []) ↔
      ∀ moment ∈ history, Fresh moment.1 moment.2) := by
  obtain ⟨last, reached⟩ : ∃ last, [exampleStart "a", exampleStart "b", .endCollector "a".toList, exampleStart "a",
      .endCollector "ALL".toList].foldlM (step fun _ => .ok ()) BGPCollector.new = some last := ⟨_, rfl⟩
  obtain ⟨history, run, events⟩ := Run.of_foldlM reached
  exact ⟨history, last, events, collectors_running_iff run fun _ => rfl⟩

end Example

end ActiveBgp.Collector

import ActiveBgp.Frrp.Attribution

namespace ActiveBgp.Frrp

open ActiveBgp.Python ActiveBgp.Data ActiveBgp.Data.Exploration

/-! # The measurement of a source comes to an end

A set of poisons that is measured has a recorded path, so an AS that is poisoned
already offers nothing new and the sets grow from call to call.  A nested call is
made only for a path with a new edge.
-/

def Action.callee? : Action → Option (Finset Asn)
  | .entered _ callee => some callee
  | _ => none

/-- Nested calls have more poisons than their callers, and each is for a recorded path. -/
structure Deepened (state : RunState) : Prop where
  growing : ∀ caller callee, .entered caller callee ∈ state.actions → caller ⊂ callee
  called : state.actions.filterMap Action.callee? = ((recordings state.trace).map Prod.fst).tail

/-- The traceroutes name only ASes of the set. -/
def Mentions (services : Services) (src : Asn) (named : Finset Asn) : Prop :=
  ∀ number measurementId hops path, traceroute services number = .ok (.result measurementId hops) →
    getTraceroutePath (services.dig number) src hops = .ok path → ∀ asn ∈ path.asns.items, asn ∈ named

variable {services : Services} {src : Asn} {state : RunState} {poisons : Finset Asn}

section Rounds

/-- A round calls nothing and records nothing, or it calls for the path of a traceroute that it recorded. -/
def Acts (services : Services) (src : Asn) (poisons : Finset Asn) (asn : Asn) (state : RunState) :
    EStateM.Result PyError RunState (Turn Asn) → Prop
  | .ok (.descend path) after => ∃ actions number measurementId hops found,
      traceroute services number = .ok (.result measurementId hops) ∧
      getTraceroutePath (services.dig number) src hops = .ok found ∧ path = found.asns.items ∧
      actions.filterMap Action.callee? = [] ∧
      after.actions = state.actions ++ actions ++ [.entered poisons (insert asn poisons)] ∧
      recordings after.trace = recordings state.trace ++ [(insert asn poisons, path)]
  | .ok _ after | .error _ after => ∃ actions, actions.filterMap Action.callee? = [] ∧
      after.actions = state.actions ++ actions ∧ recordings after.trace = recordings state.trace

theorem measurePoisons_acts (services : Services) (src : Asn) (state : RunState) (poisons : Finset Asn) (asn : Asn) :
    Acts services src poisons asn state (measurePoisons services src poisons asn state) := by
  unfold measurePoisons
  rw [Effect.bind_eq, announce_eq]
  cases services.announce state.announcements.length with
  | error error => exact ⟨[.announced (some (insert asn poisons))], rfl, rfl, by simp⟩
  | ok _ =>
  have submitted : ∃ actions : List Action, actions.filterMap Action.callee? = [] ∧
      state.actions ++ [.announced (some (insert asn poisons))] ++ [.submitted state.submissions] =
        state.actions ++ actions ∧
      recordings (state.trace ++ [.tried poisons asn]) = recordings state.trace :=
    ⟨[.announced (some (insert asn poisons)), .submitted state.submissions], rfl, by simp, by simp⟩
  have noted (moment : Moment Asn) (none : moment.recording = none) : ∃ actions : List Action,
      actions.filterMap Action.callee? = [] ∧
      state.actions ++ [.announced (some (insert asn poisons))] ++ [.submitted state.submissions] =
        state.actions ++ actions ∧
      recordings (state.trace ++ [.tried poisons asn] ++ [moment]) = recordings state.trace := by
    obtain ⟨actions, calls, acted, _⟩ := submitted
    exact ⟨actions, calls, acted, by simp [none]⟩
  simp only [Effect.ofExcept_ok]
  rw [Effect.bind_eq, nextTraceroute_eq]
  cases answered : traceroute services state.submissions with
  | error error => exact submitted
  | ok answer =>
  cases answer with
  | notSubmitted => exact noted _ rfl
  | notCovered => exact noted _ rfl
  | notFinished => exact noted _ rfl
  | notParsed => exact noted _ rfl
  | result measurementId hops =>
      simp only
      rw [Effect.bind_eq, addPath_eq]
      cases found : getTraceroutePath (services.dig state.submissions) src hops with
      | error error => exact submitted
      | ok path =>
          cases success : path.success with
          | false =>
              simp only [success, Bool.false_eq_true, if_false]
              refine ⟨[.announced (some (insert asn poisons)), .submitted state.submissions,
                .lost (.annotate state.objects (insert asn poisons) measurementId path)], rfl, ?_, ?_⟩
              · simp [RunState.lose]
              · simp [RunState.lose]
          | true =>
              simp only [success, if_true]
              cases new : (addEdges (pairwise path.asns.items) state.graph).2 with
              | false => exact noted _ rfl
              | true =>
                  refine ⟨[.announced (some (insert asn poisons)), .submitted state.submissions,
                    .recorded (.annotate state.objects (insert asn poisons) measurementId path)],
                    state.submissions, measurementId, hops, path, answered, found, rfl, rfl, ?_, ?_⟩
                  · simp [RunState.record, RunState.enter]
                  · simp [RunState.record, RunState.enter]

theorem Deepened.rest (deepened : Deepened state) {next : RunState} {actions : List Action}
    (calls : actions.filterMap Action.callee? = []) (acted : next.actions = state.actions ++ actions)
    (traced : recordings next.trace = recordings state.trace) : Deepened next where
  growing caller callee member := by
    rw [acted] at member
    rcases List.mem_append.mp member with old | new
    · exact deepened.growing caller callee old
    · exact absurd (List.filterMap_eq_nil_iff.mp calls _ new) (by simp [Action.callee?])
  called := by rw [acted, traced, List.filterMap_append, calls, List.append_nil, deepened.called]

theorem Deepened.call (deepened : Deepened state) (recorded : Recorded state.trace poisons) {callee : Finset Asn}
    (grows : poisons ⊂ callee) {next : RunState} {actions : List Action} {path : List Asn}
    (calls : actions.filterMap Action.callee? = [])
    (acted : next.actions = state.actions ++ actions ++ [.entered poisons callee])
    (traced : recordings next.trace = recordings state.trace ++ [(callee, path)]) : Deepened next where
  growing caller other member := by
    rw [acted] at member
    rcases List.mem_append.mp member with old | new
    · rcases List.mem_append.mp old with older | between
      · exact deepened.growing caller other older
      · exact absurd (List.filterMap_eq_nil_iff.mp calls _ between) (by simp [Action.callee?])
    · obtain ⟨rfl, rfl⟩ : caller = poisons ∧ other = callee := by simpa using new
      exact grows
  called := by
    have nonempty : (recordings state.trace).map Prod.fst ≠ [] := List.ne_nil_of_mem recorded
    rw [acted, traced, List.filterMap_append, List.filterMap_append, calls, List.append_nil, deepened.called,
      List.map_append, List.tail_append_of_ne_nil nonempty]
    rfl

theorem poisonTurn_deepened (services : Services) (src : Asn) :
    ((searchSetting src).keeping Deepened).Follows (poisonTurn services src) := by
  refine (poisonTurn_follows services src).keep fun poisons asn state coherent recorded deepened => ?_
  rcases poisonTurn_cases coherent services poisons asn with ⟨_, done⟩ | ⟨tried, done⟩
  · rw [done]
    exact deepened
  have grows : poisons ⊂ insert asn poisons := Finset.ssubset_insert (not_mem_of_tried recorded tried)
  have acts := measurePoisons_acts services src state poisons asn
  rw [done]
  cases outcome : measurePoisons services src poisons asn state with
  | error error after =>
      rw [outcome] at acts
      obtain ⟨actions, calls, acted, traced⟩ := acts
      exact deepened.rest calls acted traced
  | ok turn after =>
      rw [outcome] at acts
      cases turn with
      | quit =>
          obtain ⟨actions, calls, acted, traced⟩ := acts
          exact deepened.rest calls acted traced
      | moveOn =>
          obtain ⟨actions, calls, acted, traced⟩ := acts
          exact deepened.rest calls acted traced
      | descend path =>
          obtain ⟨actions, _, _, _, _, _, _, _, calls, acted, traced⟩ := acts
          exact deepened.call recorded grows calls acted traced

end Rounds

section Outermost

/-- The first measurement calls nothing, and the path that it records is one of a traceroute. -/
def OriginalActs (services : Services) (src : Asn) :
    EStateM.Result PyError RunState (Except (Option Int) (List Asn)) → Prop
  | .ok (.ok path) after => after.actions.filterMap Action.callee? = [] ∧ recordings after.trace = [(∅, path)] ∧
      ∃ number measurementId hops found, traceroute services number = .ok (.result measurementId hops) ∧
        getTraceroutePath (services.dig number) src hops = .ok found ∧ path = found.asns.items
  | .ok (.error _) after | .error _ after =>
      after.actions.filterMap Action.callee? = [] ∧ recordings after.trace = []

theorem measureOriginal_acts (services : Services) (src : Asn) :
    OriginalActs services src (measureOriginal services src ∅ (.opened src)) := by
  unfold measureOriginal
  rw [Effect.bind_eq, nextTraceroute_eq]
  cases answered : traceroute services (RunState.opened src).submissions with
  | error error => exact ⟨rfl, rfl⟩
  | ok answer =>
  cases answer with
  | notSubmitted => exact ⟨rfl, rfl⟩
  | notCovered => exact ⟨rfl, rfl⟩
  | notFinished => exact ⟨rfl, rfl⟩
  | notParsed => exact ⟨rfl, rfl⟩
  | result measurementId hops =>
      simp only
      rw [Effect.bind_eq, addPath_eq]
      cases found : getTraceroutePath (services.dig (RunState.opened src).submissions) src hops with
      | error error => exact ⟨rfl, rfl⟩
      | ok path =>
          cases success : path.success with
          | false =>
              simp only [success, Bool.false_eq_true, if_false]
              exact ⟨rfl, rfl⟩
          | true =>
              simp only [success, if_true]
              cases new : (addEdges (pairwise path.asns.items) (RunState.opened src).graph).2 with
              | false => exact ⟨rfl, rfl⟩
              | true => exact ⟨rfl, rfl, _, measurementId, hops, path, answered, found, rfl⟩

theorem Deepened.of_no_call (calls : state.actions.filterMap Action.callee? = [])
    (single : (recordings state.trace).tail = []) : Deepened state where
  growing caller callee member := absurd (List.filterMap_eq_nil_iff.mp calls _ member) (by simp [Action.callee?])
  called := by rw [calls, ← List.map_tail, single, List.map_nil]

theorem measured_deepened (services : Services) (src : Asn) (limit : Nat) : Deepened (measured services src limit) := by
  refine measured_keeps (poisonTurn_deepened services src) ?_ limit
  have acts := measureOriginal_acts services src
  cases done : measureOriginal services src ∅ (.opened src) with
  | error error after =>
      rw [done] at acts
      exact .of_no_call acts.1 (by simp [acts.2])
  | ok answer after =>
      rw [done] at acts
      cases answer with
      | error code => exact .of_no_call acts.1 (by simp [acts.2])
      | ok path => exact .of_no_call acts.1 (by simp [acts.2.1])

variable {named : Finset Asn}

/-- The deeper a call, the fewer of the named ASes are left to poison. -/
theorem poisonTurn_ranked (mentions : Mentions services src named) :
    (searchSetting src).Ranked (poisonTurn services src)
      (fun poisons items => poisons ⊆ named ∧ ∀ asn ∈ items, asn ∈ named) fun poisons => named.card - poisons.card where
  tail poisons asn rest good := ⟨good.1, fun other member => good.2 other (by simp [member])⟩
  descend poisons asn rest state path after coherent recorded good done := by
    obtain ⟨inside, onPath⟩ := good
    rcases poisonTurn_cases coherent services poisons asn with ⟨_, same⟩ | ⟨tried, same⟩
    · rw [same] at done
      cases done
    · have acts := measurePoisons_acts services src state poisons asn
      rw [← same, done] at acts
      obtain ⟨_, number, measurementId, hops, found, answered, delivered, rfl, _⟩ := acts
      have larger : insert asn poisons ⊆ named := Finset.insert_subset (onPath asn (by simp)) inside
      have card := Finset.card_insert_of_notMem (not_mem_of_tried recorded tried)
      have bound := Finset.card_le_card larger
      exact ⟨⟨larger, mentions number measurementId hops found answered delivered⟩, by omega⟩

theorem outermost_limit (mentions : Mentions services src named) {limit : Nat} (enough : named.card ≤ limit) :
    outermost services src limit = outermost services src named.card := by
  have follows := poisonTurn_follows services src
  have loops := measureBody_loops services src
  have ranked := poisonTurn_ranked mentions
  have opens : Opens src ∅ [] (measureOriginal services src ∅ (.opened src)) :=
    measureOriginal_opens (coherent_opened src) rfl
  have acts := measureOriginal_acts services src
  unfold outermost
  rw [measureSingleSource_unroll, measureSingleSource_unroll, unroll, unroll]
  simp only [measureBody, Effect.bind_eq]
  cases done : measureOriginal services src ∅ (.opened src) with
  | error error after => rfl
  | ok answer after =>
      cases answer with
      | error code => rfl
      | ok path =>
          rw [done] at opens acts
          obtain ⟨coherent, same, _⟩ := opens
          obtain ⟨_, _, number, measurementId, hops, found, answered, delivered, rfl⟩ := acts
          have root : Recorded after.trace ∅ := by simp [same, Recorded]
          have agree (path : List Asn) (deeper : Finset Asn) (state : RunState)
              (valid : (searchRules src).valid path) (now : Coherent src state) (here : Recorded state.trace deeper)
              (fits : deeper ⊆ named ∧ ∀ asn ∈ path, asn ∈ named)
              (falls : named.card - deeper.card < named.card - (∅ : Finset Asn).card) :
              unroll (measureBody services src) .recursionError limit path deeper state =
                unroll (measureBody services src) .recursionError named.card path deeper state := by
            rw [Finset.card_empty, Nat.sub_zero] at falls
            exact ranked.unroll follows loops _ (by omega) falls valid now here fits
          have looped := ranked.loop follows (follows.unroll loops .recursionError limit) agree coherent root
            ⟨Finset.empty_subset named, mentions number measurementId hops found answered delivered⟩
          simp only [Effect.bind_eq, poisonLoop, looped]

theorem entered_le_edges (services : Services) (src : Asn) (limit : Nat) :
    ((measured services src limit).actions.filterMap Action.callee?).length ≤
      (measured services src limit).graph.edges.card := by
  have coherent := (measured_cases services src limit).1
  have sound := measured_sound services src limit
  rw [(measured_deepened services src limit).called, List.length_tail, List.length_map, coherent.edges]
  exact le_trans (Nat.sub_le _ _) (length_le_card_pathEdges sound.novel)

/-- If the traceroutes name finitely many ASes, a limit on nested calls beyond their number
changes nothing; and in any case the poisons grow along every chain of nested calls, of
which there are at most as many as edges. -/
theorem search_terminates (mentions : Mentions services src named) :
    (∀ limit, named.card ≤ limit → outermost services src limit = outermost services src named.card) ∧
    ∀ limit, (∀ chain : List (Finset Asn),
        chain.IsChain (fun caller callee => .entered caller callee ∈ (measured services src limit).actions) →
          chain.Pairwise (· ⊂ ·)) ∧
      ((measured services src limit).actions.filterMap Action.callee?).length ≤
        (measured services src limit).graph.edges.card := by
  refine ⟨fun limit enough => outermost_limit mentions enough, fun limit => ⟨fun chain nested => ?_,
    entered_le_edges services src limit⟩⟩
  exact (nested.imp (measured_deepened services src limit).growing).pairwise

theorem traceroute_scripted (paths : List (List Asn)) (number : Nat) :
    traceroute (scripted paths) number = .ok (.result ((number : Int) + 1) ((paths.getD number []).map fun _ =>
      ⟨some [⟨some 1, some "192.0.2.1".toList⟩]⟩)) := by
  have unsuited : ¬ "No suitable probes".toList <:+: "Stopped".toList := by decide
  have created : submitTraceroute (scripted paths) number = .ok (some ((number : Int) + 1)) := rfl
  have waited : waitOnMeasurement ((scripted paths).poll number) = .ok (some ⟨some ((paths.getD number []).map fun _ =>
      ⟨some [⟨some 1, some "192.0.2.1".toList⟩]⟩)⟩) :=
    waitOnMeasurement_first rfl unsuited rfl rfl
  have covered : (number : Int) + 1 ≠ -1 := by omega
  simp only [traceroute, created, waited, except_bind_ok, if_neg covered]
  rfl

theorem mentions_scripted : Mentions (scripted [[1, 2, 3], [1, 3, 4]]) 1 {1, 2, 3, 4} := by
  intro number measurementId hops path answered found
  rw [traceroute_scripted] at answered
  cases answered
  have named (given : Except PyError TraceroutePath) (same : given = .ok path)
      (all : given.toOption.all (fun path => path.asns.items.all (· ∈ ({1, 2, 3, 4} : Finset Asn))) = true) :
      ∀ asn ∈ path.asns.items, asn ∈ ({1, 2, 3, 4} : Finset Asn) := by
    subst same
    simpa [Except.toOption] using all
  refine named _ found ?_
  match number with
  | 0 => decide +kernel
  | 1 => decide +kernel
  | _ + 2 => rfl

theorem search_terminates_example :
    (∀ limit, 4 ≤ limit → outermost (scripted [[1, 2, 3], [1, 3, 4]]) 1 limit =
      outermost (scripted [[1, 2, 3], [1, 3, 4]]) 1 4) ∧
    ∀ limit, (∀ chain : List (Finset Asn), chain.IsChain (fun caller callee =>
        .entered caller callee ∈ (measured (scripted [[1, 2, 3], [1, 3, 4]]) 1 limit).actions) →
          chain.Pairwise (· ⊂ ·)) ∧
      ((measured (scripted [[1, 2, 3], [1, 3, 4]]) 1 limit).actions.filterMap Action.callee?).length ≤
        (measured (scripted [[1, 2, 3], [1, 3, 4]]) 1 limit).graph.edges.card :=
  search_terminates mentions_scripted

end Outermost

end ActiveBgp.Frrp

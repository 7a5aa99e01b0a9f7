import ActiveBgp.Peering.Measure
import ActiveBgp.Frrp.Search
import ActiveBgp.Data.Growth

namespace ActiveBgp.Peering

open ActiveBgp.Python ActiveBgp.Data ActiveBgp.Data.Exploration
open ActiveBgp.Frrp (Asn TracedPath Traced addEdges addEdges_edges addEdges_old addEdges_new tracePath_spec tracePath_traced)

def searchRules (src : Asn) : Rules Asn where
  fixed asn := asn = src ∨ asn = 47065
  conflict poisons := 3 < poisons.card
  valid path := Rooted src path

def FrrpEntry.recording : FrrpEntry → Option (Finset Asn × List Asn)
  | .result _ _ poisons path _ => some (poisons, path)
  | _ => none

/-- The ASes and times come from a traceroute of the source. -/
def TracedHops (experiment : Experiment) (src : Asn) (path : List Asn) (rtts : List (Asn × ℚ)) : Prop :=
  rtts.map Prod.fst = path ∧ ∀ entry ∈ rtts, ∃ number, Traced experiment.floats.average
    (fun position => getAsnFromIp experiment.routePrefix (experiment.dig number position)) src entry

/-- The measurement writes about its source, and about paths from traceroutes. -/
def FrrpEntry.Proper (experiment : Experiment) (src : Asn) : FrrpEntry → Prop
  | .result asn _ _ path rtts => asn = src ∧ TracedHops experiment src path rtts
  | .lostConnectivity asn _ _ path rtts => asn = src ∧ TracedHops experiment src path rtts
  | .noMorePoisons asn => asn = src
  | _ => False

structure Coherent (experiment : Experiment) (src : Asn) (state : RunState) : Prop where
  edges : state.graph.edges = pathEdges (recordings state.trace)
  cached : state.poisonCache.keys = ((recordings state.trace).map Prod.fst).map getPoisonId
  logged : state.frrpLog.filterMap FrrpEntry.recording = recordings state.trace
  announced : state.announcements = none :: (tries state.trace).map some
  proper : ∀ entry ∈ state.frrpLog, entry.Proper experiment src

theorem getPoisonId_injective : Function.Injective getPoisonId :=
  (Text.intercalate_ofInt_injective (by decide)).comp sorted_injective

variable {experiment : Experiment} {src : Asn} {state : RunState} {poisons : Finset Asn} {path : TracedPath}

theorem coherent_opened (experiment : Experiment) (src : Asn) : Coherent experiment src (.opened src) where
  edges := rfl
  cached := rfl
  logged := rfl
  announced := rfl
  proper := by simp [RunState.opened]

namespace Coherent

theorem announce (coherent : Coherent experiment src state) (poisons : Finset Asn) (asn : Asn) :
    Coherent experiment src { state with
      announcements := state.announcements ++ [some (insert asn poisons)]
      trace := state.trace ++ [.tried poisons asn] } where
  edges := by simpa using coherent.edges
  cached := by simpa using coherent.cached
  logged := by simpa using coherent.logged
  announced := by simp [coherent.announced]
  proper := coherent.proper

theorem note (coherent : Coherent experiment src state) {moment : Moment Asn} (visit : moment.visit = none)
    (recording : moment.recording = none) :
    Coherent experiment src { state with trace := state.trace ++ [moment] } where
  edges := by simpa [recording] using coherent.edges
  cached := by simpa [recording] using coherent.cached
  logged := by simpa [recording] using coherent.logged
  announced := by simpa [visit] using coherent.announced
  proper := coherent.proper

theorem submit (coherent : Coherent experiment src state) (workingProbe : Option Int) (submissions : List (Option Int)) :
    Coherent experiment src { state with workingProbe := workingProbe, submissions := submissions } :=
  ⟨coherent.edges, coherent.cached, coherent.logged, coherent.announced, coherent.proper⟩

theorem log (coherent : Coherent experiment src state) {entry : FrrpEntry} (recording : entry.recording = none)
    (proper : entry.Proper experiment src) :
    Coherent experiment src { state with frrpLog := state.frrpLog ++ [entry] } where
  edges := coherent.edges
  cached := coherent.cached
  logged := by simpa [recording] using coherent.logged
  announced := coherent.announced
  proper := List.forall_mem_append.mpr ⟨coherent.proper, by simpa using proper⟩

theorem lose (coherent : Coherent experiment src state) (traced : TracedHops experiment src path.asns.items path.rtts.entries)
    (measurementId : Int) (poisons : Finset Asn) : Coherent experiment src (state.lose src measurementId poisons path) :=
  coherent.log rfl ⟨rfl, traced⟩

theorem record (coherent : Coherent experiment src state) (traced : TracedHops experiment src path.asns.items path.rtts.entries)
    (unrecorded : ¬ Recorded state.trace poisons) (measurementId : Int) :
    Coherent experiment src (({ state with graph := (addEdges (pairwise path.asns.items) state.graph).1 } : RunState).record
      experiment src measurementId poisons path) := by
  have recordings : recordings (state.trace ++ [.recorded poisons path.asns.items]) =
      recordings state.trace ++ [(poisons, path.asns.items)] := by simp
  constructor
  case edges =>
    simp only [RunState.record, addEdges_edges, coherent.edges, recordings]
    ext edge
    simp [or_and_right, exists_or]
  case cached =>
    simp only [RunState.record, recordings, List.map_append, List.map_cons, List.map_nil]
    have keys := Dict.keys_set_of_keys getPoisonId_injective coherent.cached unrecorded
      (path.asns.items, getKvString experiment.floats path.rtts.entries)
    simpa using keys
  case logged =>
    simp only [RunState.record, recordings, List.filterMap_append, coherent.logged]
    rfl
  case announced => simpa [RunState.record] using coherent.announced
  case proper =>
    have new : FrrpEntry.Proper experiment src
        (.result src measurementId poisons path.asns.items path.rtts.entries) := ⟨rfl, traced⟩
    exact List.forall_mem_append.mpr ⟨coherent.proper, by simpa using new⟩

end Coherent

section Steps

variable {number : Nat} {measurementId : Int}

theorem nextTraceroute_eq (probe : Option Int) : nextTraceroute experiment probe state =
    match traceroute experiment state.submissions.length with
    | .error error => .error error { state with submissions := state.submissions ++ [probe] }
    | .ok answer => .ok (state.submissions.length, answer) { state with submissions := state.submissions ++ [probe] } := by
  simp only [nextTraceroute, Effect.bind_eq, Effect.get_apply, Effect.set_apply]
  cases traceroute experiment state.submissions.length <;> rfl

theorem announce_eq (currentPathAsn : Asn) : announce experiment poisons currentPathAsn state =
    Effect.ofExcept (makeAnnouncement experiment state.announcements.length) { state with
      announcements := state.announcements ++ [some (insert currentPathAsn poisons)]
      trace := state.trace ++ [.tried poisons currentPathAsn] } := by
  simp only [announce, Effect.bind_eq, Effect.get_apply, Effect.set_apply]

/-- The graph changes only if the path is new; then the path is recorded next. -/
theorem addPath_cases (coherent : Coherent experiment src state) (number : Nat) (result : Frrp.Traceroute)
    (measurementId : Int) (poisons : Finset Asn) :
    (∃ error, addPath experiment src number result measurementId poisons state = .error error state) ∨
    (∃ path, addPath experiment src number result measurementId poisons state =
      .ok none (state.lose src measurementId poisons path) ∧
        TracedHops experiment src path.asns.items path.rtts.entries) ∨
    (∃ path, addPath experiment src number result measurementId poisons state = .ok (some (false, path)) state) ∨
    ∃ path, addPath experiment src number result measurementId poisons state = .ok (some (true, path))
        { state with graph := (addEdges (pairwise path.asns.items) state.graph).1 } ∧
      TracedHops experiment src path.asns.items path.rtts.entries ∧ (searchRules src).valid path.asns.items ∧
      Novel (recordings state.trace) (poisons, path.asns.items) := by
  unfold addPath
  rw [Effect.bind_eq]
  cases result.result with
  | none => exact .inl ⟨.keyError, rfl⟩
  | some hops =>
  simp only [orRaise, Effect.ofExcept_ok]
  rw [Effect.bind_eq]
  cases found : getTraceroutePath experiment.floats experiment.routePrefix (experiment.dig number) src hops with
  | error error => exact .inl ⟨error, rfl⟩
  | ok path =>
      obtain ⟨keys, atSource⟩ := tracePath_spec found
      have timed : path.rtts.entries.map Prod.fst = path.asns.items := congrArg IndexedSet.items keys
      have traced : TracedHops experiment src path.asns.items path.rtts.entries :=
        ⟨timed, fun entry member => ⟨number, tracePath_traced found entry member⟩⟩
      simp only [Effect.ofExcept_ok]
      split
      · rename_i success
        rw [Effect.bind_eq]
        cases new : (addEdges (pairwise path.asns.items) state.graph).2 with
        | false =>
            refine .inr (.inr (.inl ⟨path, ?_⟩))
            simp only [Effect.get_apply, Effect.bind_eq, Effect.set_apply, Effect.pure_apply, new, addEdges_old new]
        | true =>
            obtain ⟨edge, inside, absent⟩ := (addEdges_new _ _).mp new
            refine .inr (.inr (.inr ⟨path, ?_, traced, ⟨path.asns.distinct, ?_⟩, edge, inside, ?_⟩))
            · simp only [Effect.get_apply, Effect.bind_eq, Effect.set_apply, Effect.pure_apply, new]
            · have head := atSource success
              cases items : path.asns.items with
              | nil => simp [items] at head
              | cons first others =>
                  obtain rfl : first = src := by simpa [items] using head
                  cases others with
                  | nil => simp [items, pairwise] at inside
                  | cons second rest => exact ⟨second, rest, rfl⟩
            · intro other earlier onPath
              exact absent (by rw [coherent.edges]; exact mem_pathEdges.mpr ⟨other, earlier, onPath⟩)
      · exact .inr (.inl ⟨path, rfl, traced⟩)

def searchSetting (experiment : Experiment) (src : Asn) : Setting Asn RunState :=
  ⟨searchRules src, RunState.trace, Coherent experiment src⟩

theorem measurePoisons_turns (coherent : Coherent experiment src state) {asn : Asn}
    (tried : ¬ Skipped (searchRules src) state.trace poisons asn) :
    (searchSetting experiment src).Turns poisons asn state.trace (measurePoisons experiment src poisons asn state) := by
  have unrecorded : ¬ Recorded state.trace (insert asn poisons) := fun known => tried (.inr (.inr known))
  have announced := coherent.announce poisons asn
  unfold measurePoisons
  rw [Effect.bind_eq, announce_eq]
  cases makeAnnouncement experiment state.announcements.length with
  | error error => exact ⟨announced, tried, rfl⟩
  | ok _ =>
  have submitted := announced.submit state.workingProbe (state.submissions ++ [state.workingProbe])
  simp only [Effect.ofExcept_ok]
  rw [Effect.bind_eq, Effect.get_apply]
  simp only
  rw [Effect.bind_eq, nextTraceroute_eq]
  cases traceroute experiment state.submissions.length with
  | error error => exact ⟨submitted, tried, rfl⟩
  | ok answer =>
  cases answer with
  | notSubmitted => exact ⟨submitted.note rfl rfl, tried, rfl⟩
  | notCovered => exact ⟨submitted.note rfl rfl, tried, rfl⟩
  | notFinished => exact ⟨submitted.note rfl rfl, .inr ⟨tried, rfl⟩⟩
  | finished measurementId result =>
      simp only
      rw [Effect.bind_eq]
      obtain ⟨error, done⟩ | ⟨path, done, traced⟩ | ⟨path, done⟩ | ⟨path, done, traced, valid, novel⟩ :=
        addPath_cases submitted state.submissions.length result measurementId (insert asn poisons)
      · rw [done]
        exact ⟨submitted, tried, rfl⟩
      · rw [done]
        exact ⟨(submitted.lose traced measurementId _).note rfl rfl, .inr ⟨tried, rfl⟩⟩
      · rw [done]
        exact ⟨submitted.note rfl rfl, .inr ⟨tried, rfl⟩⟩
      · rw [done]
        exact ⟨submitted.record traced (by simpa [Recorded] using unrecorded) measurementId, tried, rfl, valid,
          by simpa using novel⟩

/-- A round measures nothing for an AS that is skipped, and measures the poisons otherwise. -/
theorem poisonTurn_cases (coherent : Coherent experiment src state) {asn : Asn} (recorded : Recorded state.trace poisons) :
    (Skipped (searchRules src) state.trace poisons asn ∧
      ∃ after, poisonTurn experiment src poisons asn state = .ok .moveOn after ∧
        Coherent experiment src after ∧ after.trace = state.trace) ∨
    (¬ Skipped (searchRules src) state.trace poisons asn ∧
      poisonTurn experiment src poisons asn state = measurePoisons experiment src poisons asn state) := by
  have cached := Dict.isSome_get?_iff_of_keys getPoisonId_injective coherent.cached (insert asn poisons)
  unfold poisonTurn
  rw [Effect.bind_eq]
  simp only [Effect.get_apply]
  split
  · rename_i fixed
    exact .inl ⟨.inl fixed, state, rfl, coherent, rfl⟩
  split
  · rename_i _ full
    refine .inl ⟨?_, _, rfl, coherent.log rfl rfl, rfl⟩
    -- An AS of a full set of poisons offers that set, which is recorded.
    by_cases inside : asn ∈ poisons
    · exact .inr (.inr (by rwa [Finset.insert_eq_self.mpr inside]))
    · have card := Finset.card_insert_of_notMem inside
      exact .inr (.inl (show 3 < (insert asn poisons).card by omega))
  split
  · rename_i _ _ existing
    exact .inl ⟨.inr (.inr (cached.mp existing)), state, rfl, coherent, rfl⟩
  rename_i free room fresh
  refine .inr ⟨fun skipped => ?_, rfl⟩
  rcases skipped with fixed | full | known
  · exact free fixed
  · exact room (lt_of_lt_of_le full (Finset.card_insert_le asn poisons))
  · exact fresh (cached.mpr known)

theorem poisonTurn_follows (experiment : Experiment) (src : Asn) :
    (searchSetting experiment src).Follows (poisonTurn experiment src) := by
  intro poisons asn state coherent recorded
  rcases poisonTurn_cases coherent recorded with ⟨skipped, after, done, now, same⟩ | ⟨tried, done⟩
  · rw [done]
    exact ⟨now, .inl ⟨skipped, same⟩⟩
  · rw [done]
    exact measurePoisons_turns coherent tried

theorem measureBody_loops (experiment : Experiment) (src : Asn) (probes : List Int) :
    (searchSetting experiment src).Loops (poisonTurn experiment src) (measureBody experiment src probes) none := by
  intro recurse path poisons valid
  cases path with
  | nil => exact absurd rfl valid.ne_nil
  | cons first rest => rfl

theorem poisonTurn_ranked (experiment : Experiment) (src : Asn) :
    (searchSetting experiment src).Ranked (poisonTurn experiment src) (fun _ _ => True) fun poisons => 3 - poisons.card where
  tail _ _ _ _ := trivial
  descend poisons asn _ state path after coherent recorded _ done := by
    refine ⟨trivial, ?_⟩
    rcases poisonTurn_cases coherent recorded with ⟨_, _, same, _⟩ | ⟨tried, _⟩
    · rw [same] at done
      cases done
    · have card := Finset.card_insert_of_notMem (not_mem_of_tried recorded tried)
      have room : ¬ 3 < (insert asn poisons).card := fun full => tried (.inr (.inl full))
      omega

end Steps

section Outermost

theorem tryProbes_coherent (probes : List Int) (coherent : Coherent experiment src state) :
    Outcome (fun after => Coherent experiment src after ∧ after.trace = state.trace)
      (tryProbes experiment probes state) := by
  induction probes generalizing state with
  | nil => exact ⟨coherent, rfl⟩
  | cons probe rest ih =>
      have submitted := coherent.submit state.workingProbe (state.submissions ++ [some probe])
      rw [tryProbes, Effect.bind_eq, nextTraceroute_eq]
      cases traceroute experiment state.submissions.length with
      | error error => exact ⟨submitted, rfl⟩
      | ok answer =>
      cases answer with
      | notSubmitted => exact ⟨submitted, rfl⟩
      | notCovered => exact ⟨submitted, rfl⟩
      | notFinished => exact ih submitted
      | finished measurementId result => exact ⟨submitted.submit (some probe) _, rfl⟩

theorem measureOriginal_opens (probes : List Int) (coherent : Coherent experiment src state)
    (unrecorded : ¬ Recorded state.trace poisons) :
    (searchSetting experiment src).Opens poisons state.trace (measureOriginal experiment src probes poisons state) := by
  have forgotten := coherent.submit none state.submissions
  have tried := tryProbes_coherent probes forgotten
  unfold measureOriginal
  rw [Effect.bind_eq, Effect.modify_apply]
  simp only
  rw [Effect.bind_eq]
  cases done : tryProbes experiment probes { state with workingProbe := none } with
  | error error after =>
      rw [done] at tried
      exact tried
  | ok answer after =>
  rw [done] at tried
  obtain ⟨now, same⟩ := tried
  cases answer with
  | error code => exact ⟨now, same⟩
  | ok found =>
      obtain ⟨number, measurementId, result⟩ := found
      have same : after.trace = state.trace := same
      simp only
      rw [Effect.bind_eq]
      obtain ⟨error, added⟩ | ⟨path, added, traced⟩ | ⟨path, added⟩ | ⟨path, added, traced, valid, novel⟩ :=
        addPath_cases now number result measurementId poisons
      · rw [added]
        exact ⟨now, same⟩
      · rw [added]
        exact ⟨now.lose traced measurementId poisons, same⟩
      · rw [added]
        exact ⟨now, same⟩
      · rw [added]
        rw [← same] at unrecorded ⊢
        exact ⟨now.record traced unrecorded measurementId, rfl, valid, novel⟩

def outermost (experiment : Experiment) (src : Asn) (probes : List Int) (limit : Nat) :
    EStateM.Result PyError RunState (Option Int) :=
  measureSingleSource experiment src probes limit [] ∅ (.opened src)

def measured (experiment : Experiment) (src : Asn) (probes : List Int) (limit : Nat) : RunState :=
  final (outermost experiment src probes limit)

variable (experiment src) (probes : List Int) (limit : Nat)

theorem outermost_eq : outermost experiment src probes limit =
    searchFrom (measureOriginal experiment src probes ∅) (poisonTurn experiment src)
      (unroll (measureBody experiment src probes) .recursionError limit) ∅ none (.opened src) := by
  rw [outermost, measureSingleSource, unroll, measureBody, searchFrom, Effect.bind_eq, Effect.bind_eq]
  cases measureOriginal experiment src probes ∅ (.opened src) with
  | error error after => rfl
  | ok answer after => cases answer <;> rfl

theorem measureOriginal_opened : (searchSetting experiment src).Opens ∅ []
    (measureOriginal experiment src probes ∅ (.opened src)) :=
  measureOriginal_opens probes (coherent_opened experiment src) (by simp [RunState.opened, Recorded])

theorem measured_started : ∃ returned, (searchSetting experiment src).Started ∅ [] returned
    (measured experiment src probes limit) := by
  have follows := poisonTurn_follows experiment src
  have nested := follows.unroll (measureBody_loops experiment src probes) .recursionError limit
  have starts : (searchSetting experiment src).Starts ∅ [] (outermost experiment src probes limit) := by
    rw [outermost_eq]
    exact follows.searchFrom nested (measureOriginal_opened experiment src probes)
  unfold measured
  cases done : outermost experiment src probes limit with
  | error error after =>
      rw [done] at starts
      exact ⟨false, starts⟩
  | ok code after =>
      rw [done] at starts
      exact ⟨true, starts⟩

theorem measured_coherent : Coherent experiment src (measured experiment src probes limit) := by
  obtain ⟨_, started⟩ := measured_started experiment src probes limit
  exact started.1

theorem measured_sound : Sound (searchRules src) (measured experiment src probes limit).trace ∧
    Grown (measured experiment src probes limit).trace ∧ (visits (measured experiment src probes limit).trace).Nodup := by
  obtain ⟨_, _, empty | ⟨path, rooted, novel, explores⟩⟩ := measured_started experiment src probes limit
  · have empty : (measured experiment src probes limit).trace = [] := empty
    rw [empty]
    exact ⟨⟨List.nodup_nil, by simp, chronicle_nil, chronicle_nil⟩, by simp [Grown, Recorded], List.nodup_nil⟩
  · have root : Grown [Moment.recorded (∅ : Finset Asn) path] := fun set recorded => .inl (by simpa [Recorded] using recorded)
    exact ⟨(explores.sound_root rooted novel).1, explores.grown root,
      explores.visits_root (fun path valid => valid.1) rooted⟩

theorem outermost_limit (enough : 3 ≤ limit) :
    outermost experiment src probes limit = outermost experiment src probes 3 := by
  rw [outermost_eq, outermost_eq]
  exact (poisonTurn_ranked experiment src).searchFrom (poisonTurn_follows experiment src)
    (measureBody_loops experiment src probes) .recursionError enough (measureOriginal_opened experiment src probes)
      fun _ _ _ => trivial

theorem announced_poisons (poisons : Finset Asn)
    (announced : some poisons ∈ (measured experiment src probes limit).announcements) :
    1 ≤ poisons.card ∧ poisons.card ≤ 3 ∧ src ∉ poisons ∧ 47065 ∉ poisons := by
  rw [(measured_coherent experiment src probes limit).announced] at announced
  obtain ⟨⟨origin, asn⟩, visited, rfl⟩ : ∃ visit ∈ visits (measured experiment src probes limit).trace,
      insert visit.2 visit.1 = poisons := by simpa [tries] using announced
  obtain ⟨_, new, allowed, order, _, same, free, _⟩ := (measured_sound experiment src probes limit).1.visit visited
  have notFixed (fixed : Asn) (isFixed : (searchRules src).fixed fixed) : fixed ∉ insert asn origin := by
    rw [← same, List.mem_toFinset]
    exact fun member => free fixed member isFixed
  exact ⟨Finset.card_pos.mpr (Finset.insert_nonempty asn origin), not_lt.mp allowed.2, notFixed src (.inl rfl),
    notFixed 47065 (.inr rfl)⟩

/-- The measurement of a source needs no more than three nested calls, announces small sets
of poisons only, and announces few of them where the paths are short. -/
theorem search_bounded : (∀ limit, 3 ≤ limit → outermost experiment src probes limit = outermost experiment src probes 3) ∧
    (∀ poisons, some poisons ∈ (measured experiment src probes limit).announcements →
      1 ≤ poisons.card ∧ poisons.card ≤ 3 ∧ src ∉ poisons ∧ 47065 ∉ poisons) ∧
    ∀ bound, (∀ recording ∈ (measured experiment src probes limit).frrpLog.filterMap FrrpEntry.recording,
        recording.2.length ≤ bound) →
      ((measured experiment src probes limit).announcements.filterMap id).length ≤ bound + bound ^ 2 + bound ^ 3 := by
  obtain ⟨sound, grown, distinct⟩ := measured_sound experiment src probes limit
  have coherent := measured_coherent experiment src probes limit
  refine ⟨fun limit => outermost_limit experiment src probes limit, announced_poisons experiment src probes limit,
    fun bound short => ?_⟩
  rw [coherent.logged] at short
  have shallow (poisons : Finset Asn) (allowed : ¬ (searchRules src).conflict poisons) : poisons.card ≤ 3 :=
    not_lt.mp allowed
  have few := sound.length_tries_le grown distinct short shallow
  rw [coherent.announced]
  simpa [Finset.sum_range_succ, List.filterMap_map] using few

end Outermost

end ActiveBgp.Peering

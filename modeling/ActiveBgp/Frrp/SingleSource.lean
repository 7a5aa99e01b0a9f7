import ActiveBgp.Frrp.Search
import ActiveBgp.Data.Coverage

namespace ActiveBgp.Frrp

open ActiveBgp.Python ActiveBgp.Data ActiveBgp.Data.Exploration

variable {services : Services} {src : Asn} {state : RunState} {poisons : Finset Asn}

section Opening

/-- What the part for a call without a path may do. -/
def Opens (src : Asn) (poisons : Finset Asn) (before : Trace Asn) :
    EStateM.Result PyError RunState (Except (Option Int) (List Asn)) → Prop
  | .error _ after => Coherent src after ∧ after.trace = before
  | .ok (.error _) after => Coherent src after ∧ after.trace = before
  | .ok (.ok path) after =>
      Coherent src after ∧ after.trace = before ++ [.recorded poisons path] ∧ (searchRules src).valid path ∧
        Novel (recordings before) (poisons, path)

theorem recordedPaths_eq_nil (coherent : Coherent src state) (empty : recordings state.trace = []) :
    state.frrpRun.recordedPaths = [] := by
  have recorded := coherent.recorded
  rw [empty] at recorded
  exact List.map_eq_nil_iff.mp recorded

theorem measureOriginal_opens (coherent : Coherent src state) (empty : recordings state.trace = []) :
    Opens src poisons state.trace (measureOriginal services src poisons state) := by
  have submitted := coherent.submit (state.submissions + 1) (state.actions ++ [.submitted state.submissions])
  unfold measureOriginal
  rw [Effect.bind_eq, nextTraceroute_eq]
  cases traceroute services state.submissions with
  | error error => exact ⟨submitted, rfl⟩
  | ok answer =>
  cases answer with
  | notSubmitted => exact ⟨submitted, rfl⟩
  | notCovered => exact ⟨submitted, rfl⟩
  | notFinished => exact ⟨submitted, rfl⟩
  | notParsed => exact ⟨submitted, rfl⟩
  | result measurementId hops =>
      simp only
      rw [Effect.bind_eq]
      obtain ⟨error, done⟩ | ⟨path, done⟩ | ⟨path, done⟩ | ⟨path, done, timed, valid, novel⟩ :=
        addPath_cases submitted services state.submissions hops measurementId poisons
      · rw [done]
        exact ⟨submitted, rfl⟩
      · rw [done]
        exact ⟨(submitted.lose measurementId path).log _, rfl⟩
      · rw [done]
        exact ⟨submitted.log _, rfl⟩
      · rw [done]
        obtain ⟨noOriginal, noOther⟩ : state.frrpRun.originalPath = none ∧ state.frrpRun.discoveredPaths = [] := by
          simpa [FRRPRun.recordedPaths] using recordedPaths_eq_nil coherent empty
        have kept (original : AnnotatedASPath) :
            ({ state.frrpRun with originalPath := some original } : FRRPRun).recordedPaths =
              state.frrpRun.recordedPaths ++ [original] := by
          simp [FRRPRun.recordedPaths, noOriginal, noOther]
        refine ⟨submitted.record timed (by simp [Recorded, empty]) measurementId (kept _) ?_, rfl, valid, novel⟩
        intro items member
        obtain ⟨rfl, rfl⟩ : poisons = ∅ ∧ path.asns.items = items := by simpa [empty, eq_comm] using member
        exact ⟨_, rfl, (AnnotatedASPath.annotate_spec _ _ _ timed).2.2⟩

end Opening

def outermost (services : Services) (src : Asn) (limit : Nat) : EStateM.Result PyError RunState (Option Int) :=
  measureSingleSource services src limit [] ∅ (.opened src)

def measured (services : Services) (src : Asn) (limit : Nat) : RunState := final (outermost services src limit)

/-- Every traceroute ends, and finds the path that is given for its number; an empty path is a loss. -/
def scripted (paths : List (List Asn)) : Services where
  announce _ := .ok ()
  create number := .ok (.created (some [(number : Int) + 1]))
  poll number _ := .ok ⟨true, some [⟨some ((paths.getD number []).map fun _ =>
    ⟨some [⟨some 1, some "192.0.2.1".toList⟩]⟩)⟩], "Stopped".toList⟩
  dig number position _ := .ok (Text.ofInt ((paths.getD number []).getD position 0))

section Outermost

variable {limit : Nat}

theorem measureBody_opened {recurse : List Asn → Finset Asn → Effect RunState (Option Int)}
    (nested : (searchSetting src).Nested recurse) :
    (∃ error after, measureOriginal services src ∅ (.opened src) = .error error after ∧
      measureBody services src recurse [] ∅ (.opened src) = .error error after ∧
        Coherent src after ∧ after.trace = []) ∨
    (∃ code after, measureOriginal services src ∅ (.opened src) = .ok (.error code) after ∧
      measureBody services src recurse [] ∅ (.opened src) = .ok code after ∧ Coherent src after ∧ after.trace = []) ∨
    ∃ path after, measureOriginal services src ∅ (.opened src) = .ok (.ok path) after ∧ Rooted src path ∧
      Searches src ∅ path [.recorded ∅ path] (measureBody services src recurse [] ∅ (.opened src)) := by
  have opens : Opens src ∅ [] (measureOriginal services src ∅ (.opened src)) :=
    measureOriginal_opens (coherent_opened src) rfl
  simp only [measureBody, Effect.bind_eq]
  cases done : measureOriginal services src ∅ (.opened src) with
  | error error after =>
      rw [done] at opens
      exact .inl ⟨error, after, rfl, rfl, opens⟩
  | ok original after =>
      rw [done] at opens
      cases original with
      | error code => exact .inr (.inl ⟨code, after, rfl, rfl, opens⟩)
      | ok path =>
          obtain ⟨coherent, same, rooted, _⟩ := opens
          have searches : Searches src ∅ path after.trace (poisonLoop services src recurse ∅ path after) :=
            searches_of_setting ((poisonTurn_follows services src).loop nested coherent
              (by simp [searchSetting, same, Recorded]) path)
          rw [same] at searches
          refine .inr (.inr ⟨path, after, rfl, rooted, ?_⟩)
          simp only [Effect.bind_eq]
          cases looped : poisonLoop services src recurse ∅ path after with
          | error error last =>
              rw [looped] at searches
              exact searches
          | ok value last =>
              rw [looped] at searches
              exact searches

/-- The outermost call ends with the measurement of the original path, or it explores that path. -/
theorem outermost_cases (services : Services) (src : Asn) (limit : Nat) :
    (∃ error after, measureOriginal services src ∅ (.opened src) = .error error after ∧
      outermost services src limit = .error error after ∧ Coherent src after ∧ after.trace = []) ∨
    (∃ code after, measureOriginal services src ∅ (.opened src) = .ok (.error code) after ∧
      outermost services src limit = .ok code after ∧ Coherent src after ∧ after.trace = []) ∨
    ∃ path after, measureOriginal services src ∅ (.opened src) = .ok (.ok path) after ∧ Rooted src path ∧
      Searches src ∅ path [.recorded ∅ path] (outermost services src limit) := by
  rw [outermost, measureSingleSource_unroll]
  exact measureBody_opened ((poisonTurn_follows services src).unroll (measureBody_loops services src) _ limit)

/-- What the first measurement and every round of the loop keep, the outermost call keeps. -/
theorem measured_keeps {extra : RunState → Prop}
    (follows : ((searchSetting src).keeping extra).Follows (poisonTurn services src))
    (original : Outcome extra (measureOriginal services src ∅ (.opened src))) (limit : Nat) :
    extra (measured services src limit) := by
  have opens : Opens src ∅ [] (measureOriginal services src ∅ (.opened src)) :=
    measureOriginal_opens (coherent_opened src) rfl
  have nested := follows.unroll (measureBody_loops services src) .recursionError limit
  unfold measured outermost
  rw [measureSingleSource_unroll, unroll]
  simp only [measureBody, Effect.bind_eq]
  cases done : measureOriginal services src ∅ (.opened src) with
  | error error after =>
      rw [done] at original
      exact original
  | ok answer after =>
      rw [done] at opens original
      cases answer with
      | error code => exact original
      | ok path =>
          obtain ⟨coherent, same, _⟩ := opens
          have root : Recorded after.trace ∅ := by simp [same, Recorded]
          have searches := follows.loop nested ⟨coherent, original⟩ root path
          simp only [Effect.bind_eq, poisonLoop]
          cases looped : searchLoop (poisonTurn services src)
              (unroll (measureBody services src) .recursionError limit) ∅ path after with
          | error error last =>
              rw [looped] at searches
              exact searches.1.2
          | ok value last =>
              rw [looped] at searches
              exact searches.1.2

theorem measured_cases (services : Services) (src : Asn) (limit : Nat) :
    Coherent src (measured services src limit) ∧ ((measured services src limit).trace = [] ∨
      ∃ path, Rooted src path ∧ Explores (searchRules src) ∅ path [.recorded ∅ path]
        (returned (outermost services src limit)) (measured services src limit).trace) := by
  rcases outermost_cases services src limit with
    ⟨error, after, _, done, coherent, empty⟩ | ⟨code, after, _, done, coherent, empty⟩ | ⟨path, _, _, rooted, searches⟩
  · rw [measured, done]
    exact ⟨coherent, .inl empty⟩
  · rw [measured, done]
    exact ⟨coherent, .inl empty⟩
  · exact ⟨searches.1, .inr ⟨path, rooted, searches.2⟩⟩

theorem measured_sound (services : Services) (src : Asn) (limit : Nat) :
    Sound (searchRules src) (measured services src limit).trace := by
  rcases (measured_cases services src limit).2 with empty | ⟨path, rooted, explores⟩
  · rw [empty]
    exact ⟨List.nodup_nil, by simp, chronicle_nil, chronicle_nil⟩
  · exact (explores.sound_root rooted (rooted.novel _)).1

/-- The poisons are in order: each of them lies on a path that was recorded under the ones before it. -/
structure JustifiedPoisons (src : Asn) (recorded : List (Finset Asn × List Asn)) (poisons : Finset Asn) : Prop where
  nonempty : poisons.Nonempty
  source : src ∉ poisons
  origin : 3450 ∉ poisons
  joined : ¬ (12083 ∈ poisons ∧ 3356 ∈ poisons)
  ordered : ∃ order : List Asn, order.Nodup ∧ order.toFinset = poisons ∧
    Chronicle (fun earlier asn => ∃ path, (earlier.toFinset, path) ∈ recorded ∧ asn ∈ path) order

theorem JustifiedPoisons.of_justified {before : Trace Asn} {asn : Asn}
    (justified : Justified (searchRules src) before poisons asn) :
    JustifiedPoisons src (recordings before) (insert asn poisons) := by
  obtain ⟨order, nodup, same, free, chain⟩ := justified.derived
  have notFixed (fixed : Asn) (isFixed : (searchRules src).fixed fixed) : fixed ∉ insert asn poisons := by
    rw [← same, List.mem_toFinset]
    exact fun member => free fixed member isFixed
  exact ⟨Finset.insert_nonempty _ _, notFixed src (.inl rfl), notFixed 3450 (.inr rfl), justified.allowed,
    order, nodup, same, chain⟩

/-- Every announced set of poisons is justified by the paths recorded before it. -/
theorem announcements_justified (services : Services) (src : Asn) (limit : Nat) :
    (measured services src limit).announcements = none :: (tries (measured services src limit).trace).map some ∧
    (measured services src limit).frrpRun.recorded = recordings (measured services src limit).trace ∧
    Chronicle (fun before moment => ∀ poisons asn, moment = .tried poisons asn →
      JustifiedPoisons src (recordings before) (insert asn poisons)) (measured services src limit).trace := by
  have coherent := (measured_cases services src limit).1
  refine ⟨coherent.announced, coherent.recorded, (measured_sound services src limit).justified.imp ?_⟩
  intro before moment justified poisons asn tried
  exact .of_justified (justified poisons asn tried)

/-- A call that returns, and in which no submission fails, leaves out no set of poisons. -/
theorem search_exhaustive (ended : returned (outermost services src limit) = true)
    (accepted : ∀ poisons, .refused poisons ∉ (measured services src limit).trace) :
    ∀ recording ∈ (measured services src limit).frrpRun.recorded, ∀ asn ∈ recording.2, asn ≠ src → asn ≠ 3450 →
      ¬ (12083 ∈ insert asn recording.1 ∧ 3356 ∈ insert asn recording.1) →
      some (insert asn recording.1) ∈ (measured services src limit).announcements ∨
        ∃ path, (insert asn recording.1, path) ∈ (measured services src limit).frrpRun.recorded := by
  obtain ⟨coherent, empty | ⟨path, rooted, explores⟩⟩ := measured_cases services src limit
  · rw [coherent.recorded, empty]
    simp
  · rw [coherent.recorded, coherent.announced]
    intro recording member asn inside notSource notOrigin notJoined
    have allowed : Allowed (searchRules src) recording.1 asn :=
      ⟨fun fixed => fixed.elim notSource notOrigin, notJoined⟩
    rcases explores.covers_root ended accepted recording member asn inside allowed with visited | recorded
    · have tried : insert asn recording.1 ∈ tries (measured services src limit).trace :=
        List.mem_map.mpr ⟨_, visited, rfl⟩
      exact .inl (by simp [tried])
    · obtain ⟨⟨_, found⟩, inTrace, rfl⟩ := List.mem_map.mp recorded
      exact .inr ⟨found, inTrace⟩

theorem search_exhaustive_example :
    some {4, 2} ∈ (measured (scripted [[1, 2, 3], [1, 3, 4]]) 1 9).announcements ∨
      ∃ path, ({4, 2}, path) ∈ (measured (scripted [[1, 2, 3], [1, 3, 4]]) 1 9).frrpRun.recorded := by
  have accepted : ∀ moment ∈ (measured (scripted [[1, 2, 3], [1, 3, 4]]) 1 9).trace,
      (moment matches .refused _) = false := by decide +kernel
  exact search_exhaustive (by decide +kernel) (fun poisons member => absurd (accepted _ member) (by simp))
    ({2}, [1, 3, 4]) (by decide +kernel) 4 (by decide) (by decide) (by decide) (by decide)

/-- Graph, cache and run object keep the same paths, and each path brought an edge of its own. -/
theorem recorded_paths_tracked (services : Services) (src : Asn) (limit : Nat) :
    (∀ edge, edge ∈ (measured services src limit).graph.edges ↔
      ∃ recording ∈ (measured services src limit).frrpRun.recorded, edge ∈ pairwise recording.2) ∧
    ((measured services src limit).frrpRun.recorded.map Prod.fst).Nodup ∧
    (measured services src limit).poisonCache.keys =
      ((measured services src limit).frrpRun.recorded.map Prod.fst).map getPoisonId ∧
    Chronicle Novel (measured services src limit).frrpRun.recorded ∧
    ((measured services src limit).frrpRun.recorded.map Prod.snd).Nodup ∧
    (measured services src limit).frrpRun.recorded.length ≤ (measured services src limit).graph.edges.card := by
  have coherent := (measured_cases services src limit).1
  have sound := measured_sound services src limit
  rw [coherent.recorded, coherent.edges]
  exact ⟨fun edge => mem_pathEdges, sound.distinct, coherent.cached, sound.novel, nodup_of_novel sound.novel,
    length_le_card_pathEdges sound.novel⟩

/-- No set is announced twice if no set whose measurement brought nothing is offered by
two recorded paths; and only then, in a run that comes to all offers. -/
theorem announced_once (services : Services) (src : Asn) (limit : Nat) :
    (Unshared (measured services src limit).trace → (measured services src limit).announcements.Nodup) ∧
    (returned (outermost services src limit) = true →
      (∀ poisons, .refused poisons ∉ (measured services src limit).trace) →
      (measured services src limit).announcements.Nodup → Unshared (measured services src limit).trace) := by
  obtain ⟨coherent, cases⟩ := measured_cases services src limit
  have sound := measured_sound services src limit
  have nodup : (measured services src limit).announcements.Nodup ↔ (tries (measured services src limit).trace).Nodup := by
    rw [coherent.announced, List.nodup_cons, List.nodup_map_iff (Option.some_injective _)]
    exact and_iff_right (by simp)
  rw [nodup]
  rcases cases with empty | ⟨path, rooted, explores⟩
  · rw [empty]
    exact ⟨fun _ => List.nodup_nil, fun _ _ _ => by simp [Unshared, failures]⟩
  · refine ⟨fun unshared => ?_, fun ended accepted once => ?_⟩
    · exact tries_nodup sound (explores.visits_root (fun _ valid => valid.1) rooted) unshared
    · have settled := (explores.sound_root rooted (rooted.novel _)).2 ended
      exact unshared_of_nodup sound settled (explores.covers_root ended accepted) once

theorem announced_once_example : (measured (scripted [[1, 2, 3], [1, 3, 4]]) 1 9).announcements.Nodup :=
  (announced_once (scripted [[1, 2, 3], [1, 3, 4]]) 1 9).1 (by decide +kernel)

/-- The set of 2 and 3 is measured after 2 without success, and announced again after 3. -/
theorem poisons_announced_twice :
    returned (outermost (scripted [[1, 2, 3], [1, 3, 4], [], [], [1, 2, 5]]) 1 9) = true ∧
      ¬ (measured (scripted [[1, 2, 3], [1, 3, 4], [], [], [1, 2, 5]]) 1 9).announcements.Nodup := by
  decide +kernel

end Outermost

end ActiveBgp.Frrp

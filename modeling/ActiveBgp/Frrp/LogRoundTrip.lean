import ActiveBgp.Frrp.LogText

namespace ActiveBgp.Frrp

open ActiveBgp.Python ActiveBgp.Data ActiveBgp.Data.Exploration

/-! # The logs of `frrp.py` and its runs

Whether a log is parsed depends on what the measurements find: a source without
an original path logs none at all.  It also depends on what follows the line breaks
in the name of the experiment, if it has any.
-/

section Source

variable {services : Services} {src : Asn} {state : RunState} {poisons : Finset Asn}

/-- The first traceroute leads from the source to another AS. -/
def FindsPath (services : Services) (src : Asn) : Prop :=
  match traceroute services 0 with
  | .ok (.result _ hops) => ∃ path, getTraceroutePath (services.dig 0) src hops = .ok path ∧
      path.success = true ∧ 2 ≤ path.asns.items.length
  | _ => False

/-- No path is recorded, and none is lost after the first line. -/
def Pathless (log : List FrrpEntry) : Prop :=
  (∀ entry ∈ log, entry.isResult = false) ∧ ∀ entry ∈ log.tail, entry.isPath = false

/-- The first measurement brings a path, or there is none. -/
def Brings (finds : Prop) : EStateM.Result PyError RunState (Except (Option Int) (List Asn)) → Prop
  | .ok (.ok _) _ => finds
  | .ok (.error _) after => ¬ finds ∧ Pathless after.frrpLog
  | .error _ after => ¬ finds ∧ Pathless after.frrpLog

theorem measureOriginal_brings (services : Services) (src : Asn) :
    Brings (FindsPath services src) (measureOriginal services src ∅ (.opened src)) := by
  have first : (RunState.opened src).submissions = 0 := rfl
  have silent : Pathless [] := by simp [Pathless]
  unfold measureOriginal FindsPath
  rw [Effect.bind_eq, nextTraceroute_eq, first]
  cases traceroute services 0 with
  | error error => exact ⟨id, silent⟩
  | ok answer =>
  cases answer with
  | notSubmitted => exact ⟨id, silent⟩
  | notCovered => exact ⟨id, silent⟩
  | notFinished => exact ⟨id, silent⟩
  | notParsed => exact ⟨id, silent⟩
  | result measurementId hops =>
      simp only
      rw [Effect.bind_eq, addPath_eq]
      cases found : getTraceroutePath (services.dig 0) src hops with
      | error error => exact ⟨fun ⟨_, impossible, _⟩ => by contradiction, silent⟩
      | ok path =>
          simp only
          cases success : path.success with
          | false =>
              refine ⟨fun ⟨_, same, both⟩ => ?_, ?_⟩
              · cases same
                simp [success] at both
              · simp [Pathless, RunState.lose, RunState.opened, FrrpEntry.isResult, FrrpEntry.isPath]
          | true =>
              simp only [if_true]
              cases new : (addEdges (pairwise path.asns.items) (RunState.opened src).graph).2 with
              | false =>
                  refine ⟨fun ⟨_, same, both⟩ => ?_, ?_⟩
                  · cases same
                    rw [(addEdges_opened src _).mpr both.2] at new
                    contradiction
                  · simp [Pathless, RunState.opened, FrrpEntry.isResult]
              | true => exact ⟨path, rfl, success, (addEdges_opened src _).mp new⟩

/-- The lines that the measurement of a source writes. -/
def FrrpEntry.Measured (src : Asn) : FrrpEntry → Prop
  | .error _ _ => False
  | .finalGraph _ _ => False
  | .result asn _ _ _ _ => asn = src
  | .lostConnectivity asn _ _ _ _ => asn = src
  | .invalidResult asn => asn = src

def MeasuredLog (src : Asn) (state : RunState) : Prop := ∀ entry ∈ state.frrpLog, entry.Measured src

theorem MeasuredLog.snoc (measured : MeasuredLog src state) {entry : FrrpEntry} (now : entry.Measured src) :
    ∀ other ∈ state.frrpLog ++ [entry], other.Measured src :=
  List.forall_mem_append.mpr ⟨measured, by simpa using now⟩

theorem measurePoisons_measured (measured : MeasuredLog src state) (asn : Asn) :
    Outcome (MeasuredLog src) (measurePoisons services src poisons asn state) := by
  unfold measurePoisons
  rw [Effect.bind_eq, announce_eq]
  cases services.announce state.announcements.length with
  | error error => exact measured
  | ok _ =>
  simp only [Effect.ofExcept_ok]
  rw [Effect.bind_eq, nextTraceroute_eq]
  cases traceroute services state.submissions with
  | error error => exact measured
  | ok answer =>
  cases answer with
  | notSubmitted => exact measured
  | notCovered => exact measured
  | notFinished => exact measured
  | notParsed => exact measured
  | result measurementId hops =>
      simp only
      rw [Effect.bind_eq, addPath_eq]
      cases getTraceroutePath (services.dig state.submissions) src hops with
      | error error => exact measured
      | ok path =>
          cases success : path.success with
          | false =>
              simp only [success, Bool.false_eq_true, if_false]
              exact measured.snoc rfl
          | true =>
              simp only [success, if_true]
              cases (addEdges (pairwise path.asns.items) state.graph).2 with
              | false => exact measured
              | true => exact measured.snoc rfl

theorem poisonTurn_measured (services : Services) (src : Asn) :
    ((searchSetting src).keeping (MeasuredLog src)).Follows (poisonTurn services src) := by
  refine (poisonTurn_follows services src).keep fun poisons asn state coherent _ measured => ?_
  rcases poisonTurn_cases coherent services poisons asn with ⟨_, done⟩ | ⟨_, done⟩
  · rw [done]
    exact measured
  · rw [done]
    exact measurePoisons_measured measured asn

theorem measureOriginal_measured (services : Services) (src : Asn) :
    Outcome (MeasuredLog src) (measureOriginal services src ∅ (.opened src)) := by
  have empty : MeasuredLog src (.opened src) := by simp [MeasuredLog, RunState.opened]
  unfold measureOriginal
  rw [Effect.bind_eq, nextTraceroute_eq]
  cases traceroute services (RunState.opened src).submissions with
  | error error => exact empty
  | ok answer =>
  cases answer with
  | notSubmitted => exact empty
  | notCovered => exact empty
  | notFinished => exact empty
  | notParsed => exact empty
  | result measurementId hops =>
      simp only
      rw [Effect.bind_eq, addPath_eq]
      cases getTraceroutePath (services.dig (RunState.opened src).submissions) src hops with
      | error error => exact empty
      | ok path =>
          cases success : path.success with
          | false =>
              simp only [success, Bool.false_eq_true, if_false]
              have lost : MeasuredLog src (RunState.lose src measurementId ∅ path { RunState.opened src with
                  submissions := (RunState.opened src).submissions + 1
                  actions := (RunState.opened src).actions ++ [.submitted (RunState.opened src).submissions] }) :=
                empty.snoc rfl
              exact lost.snoc rfl
          | true =>
              simp only [success, if_true]
              cases (addEdges (pairwise path.asns.items) (RunState.opened src).graph).2 with
              | false => exact empty.snoc rfl
              | true => exact empty.snoc rfl

theorem measured_log (services : Services) (src : Asn) (limit : Nat) : MeasuredLog src (measured services src limit) :=
  measured_keeps (poisonTurn_measured services src) (measureOriginal_measured services src) limit

theorem measured_pathless (nothing : ¬ FindsPath services src) (limit : Nat) :
    Pathless (measured services src limit).frrpLog ∧ (measured services src limit).frrpRun.recordedPaths = [] := by
  have brings := measureOriginal_brings services src
  rcases outermost_cases services src limit with
    ⟨error, after, first, done, coherent, empty⟩ | ⟨code, after, first, done, coherent, empty⟩ |
      ⟨path, after, first, _⟩
  · rw [first] at brings
    rw [measured, done]
    exact ⟨brings.2, recordedPaths_eq_nil coherent (by simp [empty])⟩
  · rw [first] at brings
    rw [measured, done]
    exact ⟨brings.2, recordedPaths_eq_nil coherent (by simp [empty])⟩
  · rw [first] at brings
    exact absurd brings nothing

theorem measured_original (finds : FindsPath services src) (limit : Nat) : ∃ measurementId path rtts,
    .result src measurementId ∅ path rtts ∈ (measured services src limit).frrpLog ∧ path ≠ [] ∧ rtts ≠ [] := by
  have brings := measureOriginal_brings services src
  rcases outermost_cases services src limit with
    ⟨error, after, first, _⟩ | ⟨code, after, first, _⟩ | ⟨path, after, first, rooted, coherent, explores⟩
  · rw [first] at brings
    exact absurd finds brings.1
  · rw [first] at brings
    exact absurd finds brings.1
  · have attributed : Attributed services src (measured services src limit) :=
      measured_keeps (poisonTurn_attributed services src) (measureOriginal_attributed services src) limit
    obtain ⟨more, same⟩ := explores.extends
    have recorded : (measured services src limit).frrpRun.recorded = recordings _ := coherent.recorded
    have among : (∅, path) ∈ (measured services src limit).frrpRun.recorded := by
      rw [recorded, same]
      simp
    obtain ⟨annotated, kept, content⟩ := List.mem_map.mp among
    obtain ⟨unpoisoned, rfl⟩ := Prod.mk.inj content
    rw [attributed.recorded] at kept
    obtain ⟨action, acted, same⟩ := List.mem_filterMap.mp kept
    obtain rfl : action = .recorded annotated := by cases action <;> simp_all [Action.recorded?]
    have logged : FrrpEntry.result src (annotated.atlasMId.getD 0) ∅ annotated.ases annotated.rtts ∈
        (measured services src limit).frrpLog.filter FrrpEntry.isPath := by
      rw [attributed.logged]
      exact List.mem_filterMap.mpr ⟨_, acted, by rw [Action.entry?, unpoisoned]⟩
    have nonempty : annotated.ases ≠ [] := rooted.ne_nil
    refine ⟨_, _, _, List.mem_of_mem_filter logged, nonempty, ?_⟩
    rw [← List.length_pos_iff] at nonempty ⊢
    rw [annotated.counted.2, ← annotated.counted.1]
    exact nonempty

end Source

section Sources

variable {settings : Settings} {services : SourceServices} {src : Asn}

/-- The lines that end the round of the loop for a source. -/
def FrrpEntry.Concluding (settings : Settings) (src : Asn) : FrrpEntry → Prop
  | .error asn msg => asn = src ∧ msg ∈ ["no_stable_probe".toList, "atlas_source_traceroute_error".toList,
      "atlas_source_empty_response".toList]
  | .finalGraph asn graphPath => asn = src ∧ graphPath = settings.gpickleName src
  | _ => False

theorem conclude_log (settings : Settings) (services : SourceServices) (src : Asn) (degree : Int) (err : Option Int)
    (state : SourceState) :
    ∃ more, (final (conclude settings services src degree err state)).run.frrpLog = state.run.frrpLog ++ more ∧
      ∀ entry ∈ more, entry.Concluding settings src := by
  unfold conclude
  split
  · exact ⟨[.error src "atlas_source_traceroute_error".toList], rfl, by simp [FrrpEntry.Concluding]⟩
  split
  · exact ⟨[.error src "atlas_source_empty_response".toList], rfl, by simp [FrrpEntry.Concluding]⟩
  simp only [Effect.bind_eq, Effect.modify_apply]
  have quiet : state.run.frrpLog = state.run.frrpLog ++ [] := (List.append_nil _).symm
  cases services.drawGraph with
  | error error => exact ⟨[], quiet, by simp⟩
  | ok _ =>
      simp only [Effect.ofExcept_ok]
      cases services.writeGpickle with
      | error error => exact ⟨[], quiet, by simp⟩
      | ok _ => exact ⟨[.finalGraph src (settings.gpickleName src)], rfl, by simp [FrrpEntry.Concluding]⟩

theorem sourceState_log (settings : Settings) (services : SourceServices) (limit : Nat) (src : Asn) (degree : Int) :
    (Starts services → ∃ more, (sourceState settings services limit src degree).run.frrpLog =
        (measured services.toServices src limit).frrpLog ++ more ∧ ∀ entry ∈ more, entry.Concluding settings src) ∧
      (¬ Starts services → ∀ entry ∈ (sourceState settings services limit src degree).run.frrpLog,
        entry.Concluding settings src) := by
  constructor
  · intro starts
    obtain ⟨⟨probe, probes, found⟩, announced⟩ := starts
    unfold sourceState runMeasurement
    rw [Effect.bind_eq, found]
    simp only [Effect.ofExcept_ok]
    rw [Effect.bind_eq, measureSource_eq announced, measured]
    cases done : outermost services.toServices src limit with
    | error error after => exact ⟨[], (List.append_nil _).symm, by simp⟩
    | ok code after =>
        exact conclude_log settings services src degree code { SourceState.start src with run := after.keepCache }
  · intro unstarted
    have empty : ∀ entry ∈ (SourceState.start src).run.frrpLog, entry.Concluding settings src := by
      simp [SourceState.start, RunState.opened]
    have noProbe : ∀ entry ∈ [FrrpEntry.error src "no_stable_probe".toList], entry.Concluding settings src := by
      simp [FrrpEntry.Concluding]
    unfold sourceState runMeasurement
    rw [Effect.bind_eq]
    cases found : services.findProbesByAsn with
    | error error => exact empty
    | ok probes =>
    simp only [Effect.ofExcept_ok]
    cases probes with
    | none => exact noProbe
    | some probes =>
    cases probes with
    | nil => exact noProbe
    | cons probe probes =>
        cases announced : services.announce 0 with
        | ok _ => exact absurd ⟨⟨probe, probes, found⟩, announced⟩ unstarted
        | error error =>
            simp only
            rw [Effect.bind_eq, measureSource, Effect.bind_eq, Effect.modify_apply]
            simp only
            rw [Effect.bind_eq, announced]
            exact empty

theorem fronted_gpickleName (settings : Settings) (src : Asn) : Fronted (settings.gpickleName src) :=
  ⟨"results/".toList, _, by unfold Settings.gpickleName Settings.dirName; simp only [List.append_assoc]; rfl, by decide,
    ⟨'r', by decide, by decide⟩, ⟨'/', by decide, by decide⟩⟩

/-- What is written in the round of the loop for a source. -/
def FrrpEntry.Written (settings : Settings) (src : Asn) (entry : FrrpEntry) : Prop :=
  entry.Measured src ∨ entry.Concluding settings src

theorem FrrpEntry.Written.src_eq {entry : FrrpEntry} (written : entry.Written settings src) : entry.src = src := by
  rcases written with measured | concluding
  · cases entry with
    | error asn msg => exact measured.elim
    | finalGraph asn graphPath => exact measured.elim
    | result asn atlas poisons path rtts => exact measured
    | lostConnectivity asn atlas poisons path rtts => exact measured
    | invalidResult asn => exact measured
  · cases entry with
    | error asn msg => exact concluding.1
    | finalGraph asn graphPath => exact concluding.1
    | result asn atlas poisons path rtts => exact concluding.elim
    | lostConnectivity asn atlas poisons path rtts => exact concluding.elim
    | invalidResult asn => exact concluding.elim

theorem FrrpEntry.Concluding.isPath {entry : FrrpEntry} (concluding : entry.Concluding settings src) : entry.isPath = false := by
  cases entry with
  | error asn msg => rfl
  | finalGraph asn graphPath => rfl
  | result asn atlas poisons path rtts => exact concluding.elim
  | lostConnectivity asn atlas poisons path rtts => exact concluding.elim
  | invalidResult asn => rfl

/-- The lines of the file for what is written, whatever the name of the experiment. -/
theorem shown_written {rttText : ℚ → Text} (numbers : PrintsNumbers rttText) (order : Finset Asn → List Asn)
    {entry : FrrpEntry} (written : entry.Written settings src) :
    List.Forall₂ (Shows (FrrpEntry.Reads rttText)) (Text.readlines (entry.line rttText order ++ ['\n'])) entry.lines := by
  cases entry with
  | finalGraph asn graphPath =>
      obtain ⟨_, rfl⟩ := written.resolve_left id
      exact shown_finalGraph rttText order asn (fronted_gpickleName settings src)
  | error asn msg =>
      have clean : FrrpEntry.Clean (.error asn msg) := printable_message (written.resolve_left id).2
      exact shown_clean numbers order clean
  | result asn atlas poisons path rtts => exact shown_clean numbers order trivial
  | lostConnectivity asn atlas poisons path rtts => exact shown_clean numbers order trivial
  | invalidResult asn => exact shown_clean numbers order trivial

theorem sourceState_written (settings : Settings) (services : SourceServices) (limit : Nat) (src : Asn) (degree : Int) :
    ∀ entry ∈ (sourceState settings services limit src degree).run.frrpLog, entry.Written settings src := by
  obtain ⟨started, unstarted⟩ := sourceState_log settings services limit src degree
  intro entry member
  by_cases starts : Starts services
  · obtain ⟨more, log, concluding⟩ := started starts
    rw [log] at member
    rcases List.mem_append.mp member with first | later
    · exact .inl (measured_log services.toServices src limit entry first)
    · exact .inr (concluding entry later)
  · exact .inr (unstarted starts entry member)

theorem FrrpEntry.isResult_of_isPath {entry : FrrpEntry} (pathless : entry.isPath = false) : entry.isResult = false := by
  cases entry with
  | result src atlas poisons path rtts => contradiction
  | _ => rfl

/-- The measurement of the source finds an original path. -/
def HasOriginal (services : SourceServices) (src : Asn) : Prop := Starts services ∧ FindsPath services.toServices src

theorem sourceState_pathless (settings : Settings) (nothing : ¬ HasOriginal services src) (limit : Nat) (degree : Int) :
    Pathless (sourceState settings services limit src degree).run.frrpLog ∧
      (sourceState settings services limit src degree).run.frrpRun.recordedPaths = [] := by
  obtain ⟨started, unstarted⟩ := sourceState_log settings services limit src degree
  by_cases starts : Starts services
  · obtain ⟨more, log, concluding⟩ := started starts
    obtain ⟨⟨noResult, noPath⟩, empty⟩ := measured_pathless (fun finds => nothing ⟨starts, finds⟩) limit
    refine ⟨?_, (runMeasurement_started starts settings limit src degree).2.1.trans empty⟩
    have quiet (entry : FrrpEntry) (member : entry ∈ more) : entry.isPath = false :=
      (concluding entry member).isPath
    rw [log]
    constructor
    · intro entry member
      rcases List.mem_append.mp member with first | later
      · exact noResult entry first
      · exact FrrpEntry.isResult_of_isPath (quiet entry later)
    · intro entry member
      cases entries : (measured services.toServices src limit).frrpLog with
      | nil =>
          rw [entries, List.nil_append] at member
          exact quiet entry (List.mem_of_mem_tail member)
      | cons first rest =>
          rw [entries, List.cons_append, List.tail_cons] at member
          rcases List.mem_append.mp member with early | later
          · exact noPath entry (by simpa [entries] using early)
          · exact quiet entry later
  · have quiet (entry : FrrpEntry) (member : entry ∈ (sourceState settings services limit src degree).run.frrpLog) :
        entry.isPath = false := (unstarted starts entry member).isPath
    exact ⟨⟨fun entry member => FrrpEntry.isResult_of_isPath (quiet entry member),
      fun entry member => quiet entry (List.mem_of_mem_tail member)⟩,
      (runMeasurement_unstarted starts settings limit src degree).2.2.1⟩

theorem sourceState_original (original : HasOriginal services src) (settings : Settings) (limit : Nat) (degree : Int) :
    ∃ measurementId path rtts, .result src measurementId ∅ path rtts ∈
      (sourceState settings services limit src degree).run.frrpLog ∧ path ≠ [] ∧ rtts ≠ [] := by
  obtain ⟨more, log, _⟩ := (sourceState_log settings services limit src degree).1 original.1
  obtain ⟨measurementId, path, rtts, member, nonempty⟩ := measured_original original.2 limit
  exact ⟨measurementId, path, rtts, by rw [log]; exact List.mem_append_left _ member, nonempty⟩

/-- No path was recorded, and only the first line of a source is about a path that was lost. -/
def Quiet (before : List FrrpEntry) (entry : FrrpEntry) : Prop :=
  entry.isResult = false ∧ (entry.isPath = true → ∀ other ∈ before, other.src ≠ entry.src)

/-- Sources are distinct, so what is first about a source in its own log is first about it in all of them. -/
theorem chronicle_quiet {logs : List (Asn × List FrrpEntry)} (distinct : (logs.map Prod.fst).Nodup)
    (about : ∀ log ∈ logs, ∀ entry ∈ log.2, entry.src = log.1) (pathless : ∀ log ∈ logs, Pathless log.2) :
    Chronicle Quiet (logs.flatMap Prod.snd) := by
  induction logs with
  | nil => exact chronicle_nil
  | cons log rest ih =>
      obtain ⟨outside, restDistinct⟩ := List.nodup_cons.mp distinct
      obtain ⟨aboutFirst, aboutRest⟩ := List.forall_mem_cons.mp about
      obtain ⟨⟨noResult, noPath⟩, pathlessRest⟩ := List.forall_mem_cons.mp pathless
      have later := ih restDistinct aboutRest pathlessRest
      rw [List.flatMap_cons]
      refine Chronicle.append ?_ ?_
      · intro before entry after same
        refine ⟨noResult entry (by rw [same]; simp), fun isPath other earlier => ?_⟩
        cases before with
        | nil => simp at earlier
        | cons first others =>
            rw [noPath entry (by rw [same]; simp)] at isPath
            contradiction
      · intro before entry after same
        obtain ⟨silent, first⟩ := later before entry after same
        refine ⟨silent, fun isPath other earlier sameSource => ?_⟩
        rcases List.mem_append.mp earlier with here | there
        · have member : entry ∈ rest.flatMap Prod.snd := by rw [same]; simp
          obtain ⟨otherLog, inside, among⟩ := List.mem_flatMap.mp member
          refine outside (List.mem_map.mpr ⟨otherLog, inside, ?_⟩)
          rw [← aboutRest otherLog inside entry among, ← sameSource, aboutFirst other here]
        · exact first isPath other there sameSource

/-- What a run says about its original path and its discovered paths. -/
def FRRPRun.found (run : FRRPRun) : Option (List Asn × Finset Asn) × List (List Asn × Finset Asn) :=
  (run.originalPath.map fun path => (path.ases, path.poisons.getD ∅),
    run.discoveredPaths.map fun path => (path.ases, path.poisons.getD ∅))

theorem FRRPRun.found_eq_iff {run : FRRPRun} : run.found = (none, []) ↔ run.recordedPaths = [] := by
  simp [FRRPRun.recordedPaths, FRRPRun.found, Prod.ext_iff]

variable {services : Nat → SourceServices} {sources : List (Asn × Int)} {limit : Nat}

/-- The lines about every source. -/
def sourceLogs (settings : Settings) (services : Nat → SourceServices) (limit : Nat) (sources : List (Asn × Int)) :
    List (Asn × List FrrpEntry) :=
  sources.mapIdx fun index source =>
    (source.1, (sourceState settings (services index) limit source.1 source.2).run.frrpLog)

theorem frrpLog_runMeasurements (settings : Settings) (services : Nat → SourceServices) (limit : Nat)
    (sources : List (Asn × Int)) : frrpLog (runMeasurements settings services limit sources) =
      (sourceLogs settings services limit sources).flatMap Prod.snd := by
  rw [frrpLog, runMeasurements, sourceLogs, List.mapIdx_eq_zipIdx_map, List.mapIdx_eq_zipIdx_map, List.flatMap_map,
    List.flatMap_map]

theorem mem_sourceLogs {log : Asn × List FrrpEntry} :
    log ∈ sourceLogs settings services limit sources ↔ ∃ index degree, sources[index]? = some (log.1, degree) ∧
      (sourceState settings (services index) limit log.1 degree).run.frrpLog = log.2 := by
  constructor
  · intro member
    obtain ⟨index, bound, rfl⟩ := List.mem_mapIdx.mp member
    exact ⟨index, _, List.getElem?_eq_getElem bound, rfl⟩
  · intro found
    obtain ⟨index, degree, source, same⟩ := found
    obtain ⟨bound, source⟩ := List.getElem?_eq_some_iff.mp source
    exact List.mem_mapIdx.mpr ⟨index, bound, by rw [source, same]⟩

theorem frrpLog_written (settings : Settings) (services : Nat → SourceServices) (limit : Nat) (sources : List (Asn × Int)) :
    ∀ entry ∈ frrpLog (runMeasurements settings services limit sources), entry.Written settings entry.src := by
  intro entry member
  rw [frrpLog_runMeasurements] at member
  obtain ⟨log, inside, among⟩ := List.mem_flatMap.mp member
  obtain ⟨index, degree, _, same⟩ := mem_sourceLogs.mp inside
  rw [← same] at among
  have written := sourceState_written settings _ limit _ degree entry among
  rw [written.src_eq]
  exact written

theorem not_isResult (nothing : ∀ (index : Nat) (src : Asn) (degree : Int), sources[index]? = some (src, degree) →
    ¬ HasOriginal (services index) src) :
    ∀ entry ∈ frrpLog (runMeasurements settings services limit sources), entry.isResult = false := by
  intro entry member
  rw [frrpLog_runMeasurements] at member
  obtain ⟨log, inside, among⟩ := List.mem_flatMap.mp member
  obtain ⟨index, degree, found, same⟩ := mem_sourceLogs.mp inside
  rw [← same] at among
  exact (sourceState_pathless settings (nothing index log.1 degree found) limit degree).1.1 entry among

theorem code_cut_ne_zero {entry : FrrpEntry} (quiet : entry.isResult = false) : entry.cut.notice.code ≠ 0 := by
  cases entry with
  | result src atlas poisons path rtts => cases quiet
  | error src msg => exact show (-1 : Int) ≠ 0 by decide
  | finalGraph src graphPath => exact show (1 : Int) ≠ 0 by decide
  | lostConnectivity src atlas poisons path rtts => exact show (2 : Int) ≠ 0 by decide
  | invalidResult src => exact show (-2 : Int) ≠ 0 by decide

/-- The parts of the names of files have no line breaks. -/
structure Settings.OneLine (settings : Settings) : Prop where
  timestamp : settings.timestamp.OneLine
  expStart : settings.expStart.OneLine
  expId : settings.expId.OneLine

theorem printable_gpickleName (oneLine : settings.OneLine) (src : Asn) : Printable (settings.gpickleName src) := by
  have results : Text.OneLine "results/".toList := by decide
  have underscore : Text.OneLine "_".toList := by decide
  have folder : Text.OneLine "/graph_results/atlas-as-".toList := by decide
  have dash : Text.OneLine "-".toList := by decide
  have back : Text.OneLine "-measured-graph.gpickle".toList := by decide
  have ends : ∃ last ∈ "-measured-graph.gpickle".toList.getLast?, Text.isBlank last = false := ⟨'e', by decide, by decide⟩
  have starts : ∃ first ∈ "results/".toList.head?, first ≠ ',' ∧ first ≠ '[' := ⟨'r', by decide, by decide⟩
  have dirName : settings.dirName.OneLine :=
    ((results.append oneLine.expId).append underscore).append oneLine.timestamp
  constructor <;> unfold Settings.gpickleName
  · exact (((((oneLine_numbered (dirName.append folder) src).append dash).append oneLine.expStart).append dash).append
      oneLine.expId).append back
  · exact head_append (head_append (head_append (head_append (head_append (head_append (head_append (head_append
      (head_append (head_append starts)))))))))
  · exact getLast_append ends

/-- Where the name of the experiment is on one line, the lines of the file are those of the log. -/
theorem logLines_oneLine (oneLine : settings.OneLine) {log : List FrrpEntry}
    (written : ∀ entry ∈ log, entry.Written settings entry.src) :
    logLines log = log.map .whole ∧ restNotices log = [] := by
  have each (entry : FrrpEntry) (member : entry ∈ log) : entry.lines = [.whole entry] ∧ entry.rest = [] := by
    cases entry with
    | finalGraph asn graphPath =>
        have same : graphPath = settings.gpickleName asn := ((written _ member).resolve_left id).2
        subst same
        obtain ⟨whole, none⟩ := cutName_printable (printable_gpickleName oneLine asn)
        simp [FrrpEntry.lines, FrrpEntry.cut, FrrpEntry.rest, whole, none]
    | error asn msg => exact ⟨rfl, rfl⟩
    | result asn atlas poisons path rtts => exact ⟨rfl, rfl⟩
    | lostConnectivity asn atlas poisons path rtts => exact ⟨rfl, rfl⟩
    | invalidResult asn => exact ⟨rfl, rfl⟩
  constructor
  · rw [logLines, List.flatMap_congr fun entry member => (each entry member).1, ← List.map_eq_flatMap]
  · have none : log.flatMap FrrpEntry.rest = [] := List.flatMap_eq_nil_iff.mpr fun entry member => (each entry member).2
    rw [restNotices, none, List.filterMap_nil]

theorem accepted_quiet (float? : Text → Option ℚ) {log : List FrrpEntry} (quiet : Chronicle Quiet log) :
    Chronicle (AcceptedAfter float?) (log.map .whole) := by
  intro before line after same
  obtain ⟨earlier, rest, rfl, rfl, more⟩ := List.map_eq_append_iff.mp same
  obtain ⟨entry, later, rfl, rfl, rfl⟩ := List.map_eq_cons_iff.mp more
  obtain ⟨silent, first⟩ := quiet earlier entry later rfl
  cases entry with
  | result asn atlas poisons path rtts => cases silent
  | error asn msg => trivial
  | finalGraph asn graphPath => trivial
  | invalidResult asn => trivial
  | lostConnectivity asn atlas poisons path rtts =>
      have others : ∀ notice ∈ logNotices (earlier.map .whole), notice.src ≠ asn := by
        intro notice member
        obtain ⟨line, inside, said⟩ := List.mem_filterMap.mp member
        obtain ⟨other, among, rfl⟩ := List.mem_map.mp inside
        obtain rfl : other.notice = notice := Option.some.inj said
        have src : other.notice.src = other.src := by cases other <;> rfl
        rw [src]
        exact first rfl other among
      exact List.filter_eq_nil_iff.mpr fun notice member => by simpa using others notice member

/-- Without a line break in the name of the experiment, a log without original paths is accepted. -/
theorem accepted_oneLine (float? : Text → Option ℚ) (oneLine : settings.OneLine) (distinct : (sources.map Prod.fst).Nodup)
    (nothing : ∀ (index : Nat) (src : Asn) (degree : Int), sources[index]? = some (src, degree) →
      ¬ HasOriginal (services index) src) :
    Chronicle (AcceptedAfter float?) (logLines (frrpLog (runMeasurements settings services limit sources))) ∧
      restNotices (frrpLog (runMeasurements settings services limit sources)) = [] := by
  obtain ⟨lines, rest⟩ := logLines_oneLine oneLine (frrpLog_written settings services limit sources)
  refine ⟨?_, rest⟩
  have quiet : Chronicle Quiet (frrpLog (runMeasurements settings services limit sources)) := by
    rw [frrpLog_runMeasurements]
    refine chronicle_quiet ?_ ?_ ?_
    · have named : (sourceLogs settings services limit sources).map Prod.fst = sources.map Prod.fst := by
        conv_rhs => rw [← List.zipIdx_map_fst 0 sources, List.map_map]
        rw [sourceLogs, List.mapIdx_eq_zipIdx_map, List.map_map]
        rfl
      rw [named]
      exact distinct
    · intro log inside entry among
      obtain ⟨index, degree, _, same⟩ := mem_sourceLogs.mp inside
      rw [← same] at among
      exact (sourceState_written settings _ limit _ degree entry among).src_eq
    · intro log inside
      obtain ⟨index, degree, found, same⟩ := mem_sourceLogs.mp inside
      rw [← same]
      exact (sourceState_pathless settings (nothing index log.1 degree found) limit degree).1
  rw [lines]
  exact accepted_quiet float? quiet

theorem not_hasOriginal {float? : Text → Option ℚ}
    (accepted : Chronicle (AcceptedAfter float?) (logLines (frrpLog (runMeasurements settings services limit sources))))
    (index : Nat) (src : Asn) (degree : Int) (found : sources[index]? = some (src, degree)) :
    ¬ HasOriginal (services index) src := by
  intro original
  obtain ⟨measurementId, path, rtts, member, _⟩ := sourceState_original original settings limit degree
  have logged : .result src measurementId ∅ path rtts ∈ frrpLog (runMeasurements settings services limit sources) := by
    rw [frrpLog_runMeasurements]
    exact List.mem_flatMap.mpr ⟨(src, _), mem_sourceLogs.mpr ⟨index, degree, found, rfl⟩, member⟩
  have line : .whole (.result src measurementId ∅ path rtts) ∈
      logLines (frrpLog (runMeasurements settings services limit sources)) :=
    List.mem_flatMap.mpr ⟨_, logged, List.mem_cons_self⟩
  obtain ⟨_, _, _, never⟩ := accepted.mem line
  exact never

/-- The parser rebuilds what the runs held exactly if no source has an original path, and what follows a line break in
the name of the experiment is accepted and brings no path of a source. -/
theorem log_rebuilt_iff (float? : Text → Option ℚ) {rttText : ℚ → Text} (numbers : PrintsNumbers rttText)
    (order : SetOrder Asn) (settings : Settings) (services : Nat → SourceServices) (limit : Nat)
    (sources : List (Asn × Int)) :
    let log := frrpLog (runMeasurements settings services limit sources)
    (∃ runs, parseFile float? (frrpLogFile rttText order log) = .ok runs ∧
      ∀ (index : Nat) (src : Asn) (degree : Int), sources[index]? = some (src, degree) →
        ∃ state, (runMeasurements settings services limit sources)[index]? = some state ∧
          ((runs.get? src).getD { srcAsn := src }).found = state.run.frrpRun.found) ↔
      (∀ (index : Nat) (src : Asn) (degree : Int), sources[index]? = some (src, degree) →
        ¬ HasOriginal (services index) src) ∧
      Chronicle (AcceptedAfter float?) (logLines log) ∧
      ∀ notice ∈ restNotices log, notice.code = 0 → notice.src ∉ sources.map Prod.fst := by
  intro log
  obtain ⟨knows, returns⟩ := parseFile_frrpLogFile float? numbers order fun order entry (member : entry ∈ log) =>
    shown_written numbers order (frrpLog_written settings services limit sources entry member)
  have pathless (nothing : ∀ (index : Nat) (src : Asn) (degree : Int), sources[index]? = some (src, degree) →
      ¬ HasOriginal (services index) src) {index : Nat} {src : Asn} {degree : Int}
      (found : sources[index]? = some (src, degree)) :
      (sourceState settings (services index) limit src degree).run.frrpRun.found = (none, []) :=
    FRRPRun.found_eq_iff.mpr (sourceState_pathless settings (nothing index src degree found) limit degree).2
  constructor
  · intro rebuilds
    obtain ⟨runs, parsed, same⟩ := rebuilds
    have accepted := returns.mp ⟨runs, parsed⟩
    have nothing := not_hasOriginal accepted
    refine ⟨nothing, accepted, fun notice member result listed => ?_⟩
    obtain ⟨⟨src, degree⟩, among, here⟩ := List.mem_map.mp listed
    obtain ⟨index, found⟩ := List.mem_iff_getElem?.mp among
    obtain ⟨rebuilt, rfl, known⟩ := knows runs parsed
    obtain ⟨state, ran, same⟩ := same index src degree found
    obtain rfl := Option.some.inj ((getElem?_runMeasurements found).symm.trans ran)
    rw [pathless nothing found, FRRPRun.found_eq_iff] at same
    have about : notice ∈ aboutSource src (logNotices (logLines log)) :=
      List.mem_filter.mpr ⟨mem_logNotices.mpr (.inr member), decide_eq_true here.symm⟩
    exact (known.pathless src).mp same notice about result
  · intro conditions
    obtain ⟨nothing, accepted, foreign⟩ := conditions
    obtain ⟨runs, parsed⟩ := returns.mpr accepted
    obtain ⟨rebuilt, rfl, known⟩ := knows runs parsed
    refine ⟨rebuilt.runs, parsed, fun index src degree found => ⟨_, getElem?_runMeasurements found, ?_⟩⟩
    rw [pathless nothing found]
    refine FRRPRun.found_eq_iff.mpr ((known.pathless src).mpr fun notice about result => ?_)
    obtain ⟨member, same⟩ := List.mem_filter.mp about
    rcases mem_logNotices.mp member with ⟨entry, inside, rfl⟩ | rest
    · exact absurd result (code_cut_ne_zero (not_isResult nothing entry inside))
    · refine foreign notice rest result (List.mem_map.mpr ⟨(src, degree), List.mem_of_getElem? found, ?_⟩)
      exact (decide_eq_true_iff.mp same).symm

def exampleSettings : Settings := ⟨"2".toList, "2".toList, "1".toList⟩

theorem log_rebuilt_iff_example :
    let log := frrpLog (runMeasurements exampleSettings (fun _ => scriptedSource [[1, 2]]) 9 [(1, 5)])
    (∃ runs, parseFile wholeFloat? (frrpLogFile wholeText .sorted log) = .ok runs ∧
      ∀ (index : Nat) (src : Asn) (degree : Int), [((1, 5) : Asn × Int)][index]? = some (src, degree) →
        ∃ state, (runMeasurements exampleSettings (fun _ => scriptedSource [[1, 2]]) 9 [(1, 5)])[index]? = some state ∧
          ((runs.get? src).getD { srcAsn := src }).found = state.run.frrpRun.found) ↔
      (∀ (index : Nat) (src : Asn) (degree : Int), [((1, 5) : Asn × Int)][index]? = some (src, degree) →
        ¬ HasOriginal (scriptedSource [[1, 2]]) src) ∧
      Chronicle (AcceptedAfter wholeFloat?) (logLines log) ∧
      ∀ notice ∈ restNotices log, notice.code = 0 → notice.src ∉ [((1, 5) : Asn × Int)].map Prod.fst :=
  log_rebuilt_iff wholeFloat? numeric_wholeText .sorted exampleSettings _ 9 [(1, 5)]

/-- The log of a source with an original path is not parsed. -/
theorem original_path_not_parsed :
    ¬ ∃ runs, parseFile wholeFloat? (frrpLogFile wholeText .sorted
        (frrpLog (runMeasurements exampleSettings (fun _ => scriptedSource [[1, 2]]) 9 [(1, 5)]))) = .ok runs ∧
      ∀ (index : Nat) (src : Asn) (degree : Int), [((1, 5) : Asn × Int)][index]? = some (src, degree) →
        ∃ state, (runMeasurements exampleSettings (fun _ => scriptedSource [[1, 2]]) 9 [(1, 5)])[index]? = some state ∧
          ((runs.get? src).getD { srcAsn := src }).found = state.run.frrpRun.found := by
  have failed : (parseFile wholeFloat? (frrpLogFile wholeText .sorted
      (frrpLog (runMeasurements exampleSettings (fun _ => scriptedSource [[1, 2]]) 9 [(1, 5)])))).toOption.isNone = true := by
    rw [frrpLogFile, parseFile_eq comments_frrpHeader]
    decide +kernel
  intro rebuilds
  obtain ⟨runs, parsed, _⟩ := rebuilds
  rw [parsed] at failed
  contradiction

end Sources

end ActiveBgp.Frrp

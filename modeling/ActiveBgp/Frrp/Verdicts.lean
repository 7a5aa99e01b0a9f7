import ActiveBgp.Frrp.Measurements

namespace ActiveBgp.Frrp

open ActiveBgp.Python ActiveBgp.Data ActiveBgp.Data.Exploration

variable {settings : Settings} {services : SourceServices} {limit : Nat} {src : Asn} {degree : Int}

section Original

/-- The first traceroute fails, but not with a code that the caller knows: it is not
submitted although the source is covered, its result cannot be parsed, or it does not
lead from the source to another AS. -/
def Overlooked (services : Services) (src : Asn) : Prop :=
  match traceroute services 0 with
  | .ok .notSubmitted => True
  | .ok .notParsed => True
  | .ok (.result _ hops) => ∃ path, getTraceroutePath (services.dig 0) src hops = .ok path ∧
      ¬ (path.success = true ∧ 2 ≤ path.asns.items.length)
  | _ => False

theorem addEdges_opened (src : Asn) (path : List Asn) :
    (addEdges (pairwise path) (RunState.opened src).graph).2 = true ↔ 2 ≤ path.length := by
  rw [addEdges_new]
  cases path with
  | nil => simp [pairwise]
  | cons first rest =>
      cases rest with
      | nil => simp [pairwise]
      | cons second others => simp [RunState.opened, DiGraph.addNode, DiGraph.empty]

/-- The code tells the caller of every failure but the overlooked ones. -/
def Reports (overlooked : Prop) : EStateM.Result PyError RunState (Except (Option Int) (List Asn)) → Prop
  | .error _ _ => ¬ overlooked
  | .ok (.error code) _ => code ≠ some (-1) ∧ code ≠ some (-2) ↔ overlooked
  | .ok (.ok _) _ => ¬ overlooked

theorem measureOriginal_reports (services : Services) (src : Asn) :
    Reports (Overlooked services src) (measureOriginal services src ∅ (.opened src)) := by
  have first : (RunState.opened src).submissions = 0 := rfl
  unfold measureOriginal Overlooked
  rw [Effect.bind_eq, nextTraceroute_eq, first]
  cases traceroute services 0 with
  | error error => exact id
  | ok answer =>
  cases answer with
  | notSubmitted => exact iff_of_true (by decide) trivial
  | notCovered => exact iff_of_false (by decide) id
  | notFinished => exact iff_of_false (by decide) id
  | notParsed => exact iff_of_true (by decide) trivial
  | result measurementId hops =>
      simp only
      rw [Effect.bind_eq, addPath_eq]
      cases found : getTraceroutePath (services.dig 0) src hops with
      | error error => exact fun ⟨_, impossible, _⟩ => by contradiction
      | ok path =>
          simp only
          cases success : path.success with
          | false => exact iff_of_true (by decide) ⟨path, rfl, by simp [success]⟩
          | true =>
              simp only [if_true]
              cases new : (addEdges (pairwise path.asns.items) (RunState.opened src).graph).2 with
              | false =>
                  have short : ¬ 2 ≤ path.asns.items.length := fun enough => by
                    rw [(addEdges_opened src _).mpr enough] at new
                    contradiction
                  exact iff_of_true (by decide) ⟨path, rfl, fun both => short both.2⟩
              | true =>
                  intro overlooked
                  obtain ⟨_, same, unconnected⟩ := overlooked
                  cases same
                  exact unconnected ⟨success, (addEdges_opened src _).mp new⟩

/-- The outermost call returns with a code that leads to a verdict. -/
def Judged (result : EStateM.Result PyError RunState (Option Int)) : Prop :=
  ∃ code after, result = .ok code after ∧ code ≠ some (-1) ∧ code ≠ some (-2)

theorem originalPath_of_empty {state : RunState} (coherent : Coherent src state) (empty : state.trace = []) :
    state.frrpRun.originalPath = none := by
  have none := recordedPaths_eq_nil coherent (by simp [empty])
  simp only [FRRPRun.recordedPaths, List.append_eq_nil_iff, Option.toList_eq_nil_iff] at none
  exact none.1

theorem judged_unrecorded_iff (services : Services) (src : Asn) (limit : Nat) :
    (Judged (outermost services src limit) ∧ (measured services src limit).frrpRun.originalPath = none) ↔
      Overlooked services src := by
  have reports := measureOriginal_reports services src
  rcases outermost_cases services src limit with
    ⟨error, after, first, done, coherent, empty⟩ | ⟨code, after, first, done, coherent, empty⟩ |
      ⟨path, after, first, rooted, coherent, explores⟩
  · rw [first] at reports
    refine iff_of_false ?_ reports
    intro both
    obtain ⟨⟨_, _, same, _⟩, _⟩ := both
    rw [done] at same
    contradiction
  · rw [first] at reports
    refine Iff.trans ⟨?_, fun known => ?_⟩ reports
    · intro both
      obtain ⟨⟨other, _, same, known⟩, _⟩ := both
      rw [done] at same
      cases same
      exact known
    · rw [measured, done]
      exact ⟨⟨code, after, rfl, known⟩, originalPath_of_empty coherent empty⟩
  · rw [first] at reports
    refine iff_of_false ?_ reports
    intro both
    have unrecorded := both.2
    obtain ⟨more, same⟩ := explores.extends
    obtain ⟨original, found, _⟩ := coherent.original path (by simp [same])
    rw [measured, found] at unrecorded
    contradiction

end Original

section Sources

/-- The graph is made of the recorded paths, and each of them starts at the source. -/
structure Mapped (src : Asn) (graph : DiGraph Asn) (recorded : List (Finset Asn × List Asn)) : Prop where
  edges : graph.edges = pathEdges recorded
  nodes : ∀ node ∈ graph.nodes, node = src ∨ ∃ recording ∈ recorded, node ∈ recording.2
  rooted : ∀ recording ∈ recorded, Rooted src recording.2

theorem mapped_measured (services : Services) (src : Asn) (limit : Nat) :
    Mapped src (measured services src limit).graph (measured services src limit).frrpRun.recorded := by
  have coherent := (measured_cases services src limit).1
  rw [coherent.recorded]
  exact ⟨coherent.edges, coherent.nodes, (measured_sound services src limit).valid⟩

def logged (src : Asn) (degree : Int) (graph : DiGraph Asn) (err : Option Int) : DefaultRouteEntry :=
  if err = some (-1) then .error src "atlas_source_traceroute_error".toList
  else if err = some (-2) then .error src "atlas_source_empty_response".toList
  else .verdict src degree (decide (graph.outDegree src ≤ 1))

theorem verdict_eq_logged {graph : DiGraph Asn} {err : Option Int} {asn : Asn} {other : Int} {hasDefaultRoute : Bool} :
    .verdict asn other hasDefaultRoute = logged src degree graph err ↔ (err ≠ some (-1) ∧ err ≠ some (-2)) ∧
      asn = src ∧ other = degree ∧ hasDefaultRoute = decide (graph.outDegree src ≤ 1) := by
  unfold logged
  by_cases uncovered : err = some (-1)
  · simp [uncovered]
  by_cases unfinished : err = some (-2)
  · simp [unfinished]
  rw [if_neg uncovered, if_neg unfinished, DefaultRouteEntry.verdict.injEq]
  exact (and_iff_right ⟨uncovered, unfinished⟩).symm

theorem conclude_keeps (settings : Settings) (services : SourceServices) (src : Asn) (degree : Int) (err : Option Int)
    (state : SourceState) :
    (final (conclude settings services src degree err state)).run.graph = state.run.graph ∧
      (final (conclude settings services src degree err state)).run.frrpRun.recordedPaths =
        state.run.frrpRun.recordedPaths ∧
      (final (conclude settings services src degree err state)).run.frrpRun.originalPath =
        state.run.frrpRun.originalPath ∧
      (final (conclude settings services src degree err state)).defaultRouteLog =
        state.defaultRouteLog ++ [logged src degree state.run.graph err] := by
  unfold conclude logged
  split
  · exact ⟨rfl, rfl, rfl, rfl⟩
  split
  · exact ⟨rfl, rfl, rfl, rfl⟩
  simp only [Effect.bind_eq, Effect.modify_apply]
  cases services.drawGraph with
  | error error => exact ⟨rfl, rfl, rfl, rfl⟩
  | ok _ =>
      simp only [Effect.ofExcept_ok]
      cases services.writeGpickle <;> exact ⟨rfl, rfl, rfl, rfl⟩

def Starts (services : SourceServices) : Prop :=
  (∃ probe probes, services.findProbesByAsn = .ok (some (probe :: probes))) ∧ services.announce 0 = .ok ()

theorem measureSource_eq (announced : services.announce 0 = .ok ()) (state : SourceState) :
    measureSource services limit src state = match outermost services.toServices src limit with
      | .error error after => .error error { state with run := after }
      | .ok code after => .ok code { state with run := after.keepCache } := by
  simp only [measureSource, Effect.bind_eq, Effect.modify_apply, announced, Effect.ofExcept_ok, Effect.within, outermost]
  cases measureSingleSource services.toServices src limit [] ∅ (.opened src) <;> rfl

/-- A source that is measured keeps what the outermost call left behind. -/
theorem runMeasurement_started (starts : Starts services) (settings : Settings) (limit : Nat) (src : Asn) (degree : Int) :
    (sourceState settings services limit src degree).run.graph =
        (measured services.toServices src limit).graph ∧
      (sourceState settings services limit src degree).run.frrpRun.recordedPaths =
        (measured services.toServices src limit).frrpRun.recordedPaths ∧
      (sourceState settings services limit src degree).run.frrpRun.originalPath =
        (measured services.toServices src limit).frrpRun.originalPath ∧
      ∀ asn other hasDefaultRoute, .verdict asn other hasDefaultRoute ∈
          (sourceState settings services limit src degree).defaultRouteLog ↔
        Judged (outermost services.toServices src limit) ∧ asn = src ∧ other = degree ∧
          hasDefaultRoute = decide ((measured services.toServices src limit).graph.outDegree src ≤ 1) := by
  obtain ⟨⟨probe, probes, found⟩, announced⟩ := starts
  unfold sourceState runMeasurement
  rw [Effect.bind_eq, found]
  simp only [Effect.ofExcept_ok]
  rw [Effect.bind_eq, measureSource_eq announced, measured]
  cases done : outermost services.toServices src limit with
  | error error after => exact ⟨rfl, rfl, rfl, by simp [SourceState.start, Judged]⟩
  | ok code after =>
      obtain ⟨graph, paths, original, log⟩ := conclude_keeps settings services src degree code
        { SourceState.start src with run := after.keepCache }
      refine ⟨graph, paths, original, fun asn other hasDefaultRoute => ?_⟩
      rw [log]
      refine (List.mem_singleton.trans verdict_eq_logged).trans (and_congr_left fun _ => ⟨fun known => ?_, ?_⟩)
      · exact ⟨code, after, rfl, known⟩
      · intro judged
        obtain ⟨_, _, same, known⟩ := judged
        cases same
        exact known

/-- A source that is not measured records no path and gets no verdict. -/
theorem runMeasurement_unstarted (unstarted : ¬ Starts services) (settings : Settings) (limit : Nat) (src : Asn)
    (degree : Int) :
    (∀ node ∈ (sourceState settings services limit src degree).run.graph.nodes, node = src) ∧
      (sourceState settings services limit src degree).run.graph.edges = ∅ ∧
      (sourceState settings services limit src degree).run.frrpRun.recordedPaths = [] ∧
      ∀ asn other hasDefaultRoute, .verdict asn other hasDefaultRoute ∉
        (sourceState settings services limit src degree).defaultRouteLog := by
  unfold sourceState runMeasurement
  rw [Effect.bind_eq]
  cases found : services.findProbesByAsn with
  | error error => exact ⟨by simp [SourceState.start, DiGraph.empty], rfl, rfl, by simp [SourceState.start]⟩
  | ok probes =>
  simp only [Effect.ofExcept_ok]
  have noProbe (asn : Asn) (other : Int) (hasDefaultRoute : Bool) :
      DefaultRouteEntry.verdict asn other hasDefaultRoute ∉ [.error src "no_stable_probe".toList] := by simp
  have noNode (node : Asn) (member : node ∈ (DiGraph.empty : DiGraph Asn).nodes) : node = src :=
    absurd member (Finset.notMem_empty node)
  cases probes with
  | none => exact ⟨noNode, rfl, rfl, noProbe⟩
  | some probes =>
  cases probes with
  | nil => exact ⟨noNode, rfl, rfl, noProbe⟩
  | cons probe probes =>
      cases announced : services.announce 0 with
      | ok _ => exact absurd ⟨⟨probe, probes, found⟩, announced⟩ unstarted
      | error error =>
          simp only
          rw [Effect.bind_eq, measureSource, Effect.bind_eq, Effect.modify_apply]
          simp only
          rw [Effect.bind_eq, announced]
          exact ⟨by simp [RunState.opened, DiGraph.empty, DiGraph.addNode], rfl, rfl, by simp [SourceState.start]⟩

theorem runMeasurement_mapped (settings : Settings) (services : SourceServices) (limit : Nat) (src : Asn) (degree : Int) :
    Mapped src (sourceState settings services limit src degree).run.graph
        (sourceState settings services limit src degree).run.frrpRun.recorded ∧
      ∀ asn other hasDefaultRoute, .verdict asn other hasDefaultRoute ∈
          (sourceState settings services limit src degree).defaultRouteLog →
        hasDefaultRoute = decide
          ((sourceState settings services limit src degree).run.graph.outDegree src ≤ 1) := by
  by_cases starts : Starts services
  · obtain ⟨graph, paths, _, log⟩ := runMeasurement_started starts settings limit src degree
    rw [graph, FRRPRun.recorded, paths]
    exact ⟨mapped_measured services.toServices src limit, fun asn other flag member => ((log asn other flag).mp member).2.2.2⟩
  · obtain ⟨nodes, edges, paths, log⟩ := runMeasurement_unstarted starts settings limit src degree
    rw [FRRPRun.recorded, paths]
    exact ⟨⟨edges, fun node member => .inl (nodes node member), by simp⟩,
      fun asn other flag member => absurd member (log asn other flag)⟩

variable {services : Nat → SourceServices} {sources : List (Asn × Int)} {index : Nat}

theorem getElem?_runMeasurements (found : sources[index]? = some (src, degree)) :
    (runMeasurements settings services limit sources)[index]? =
      some (sourceState settings (services index) limit src degree) := by
  rw [runMeasurements, List.getElem?_mapIdx, found]
  rfl

/-- All of the measured graph is reached from the source, nothing leads back to it, and the
source has no default route exactly if two recorded paths leave it differently. -/
theorem measured_graph_rooted (settings : Settings) (services : Nat → SourceServices) (limit : Nat)
    (found : sources[index]? = some (src, degree)) :
    ∃ state, (runMeasurements settings services limit sources)[index]? = some state ∧
      (∀ node ∈ state.run.graph.nodes,
        Relation.ReflTransGen (fun first second => (first, second) ∈ state.run.graph.edges) src node) ∧
      (∀ edge ∈ state.run.graph.edges, edge.2 ≠ src) ∧
      (∀ asn other hasDefaultRoute, .verdict asn other hasDefaultRoute ∈ state.defaultRouteLog →
        hasDefaultRoute = decide (state.run.graph.outDegree src ≤ 1)) ∧
      (decide (state.run.graph.outDegree src ≤ 1) = false ↔
        ∃ first ∈ state.run.frrpRun.recorded, ∃ second ∈ state.run.frrpRun.recorded, first.2[1]? ≠ second.2[1]?) := by
  refine ⟨_, getElem?_runMeasurements found, ?_⟩
  obtain ⟨mapped, verdicts⟩ := runMeasurement_mapped settings (services index) limit src degree
  generalize sourceState settings (services index) limit src degree = state at mapped verdicts ⊢
  refine ⟨fun node member => ?_, fun edge member => ?_, verdicts, ?_⟩
  · rcases mapped.nodes node member with rfl | ⟨recording, recorded, onPath⟩
    · exact .refl
    · refine (mapped.rooted recording recorded).reaches (fun edge inside => ?_) onPath
      rw [mapped.edges]
      exact mem_pathEdges.mpr ⟨recording, recorded, inside⟩
  · rw [mapped.edges] at member
    obtain ⟨recording, recorded, inside⟩ := mem_pathEdges.mp member
    exact (mapped.rooted recording recorded).ne_root inside
  · rw [decide_eq_false_iff_not, Nat.not_le]
    exact DiGraph.one_lt_outDegree_of_rooted mapped.edges mapped.rooted

def scriptedSource (paths : List (List Asn)) : SourceServices :=
  { scripted paths with
    findProbesByAsn := .ok (some [1])
    drawGraph := .ok ()
    writeGpickle := .ok () }

theorem measured_graph_rooted_example :
    ∃ state, (runMeasurements ⟨[], [], []⟩ (fun _ => scriptedSource [[1, 2, 3], [1, 3, 4]]) 9 [(1, 5)])[0]? = some state ∧
      (∀ node ∈ state.run.graph.nodes,
        Relation.ReflTransGen (fun first second => (first, second) ∈ state.run.graph.edges) 1 node) ∧
      (∀ edge ∈ state.run.graph.edges, edge.2 ≠ 1) ∧
      (∀ asn other hasDefaultRoute, .verdict asn other hasDefaultRoute ∈ state.defaultRouteLog →
        hasDefaultRoute = decide (state.run.graph.outDegree 1 ≤ 1)) ∧
      (decide (state.run.graph.outDegree 1 ≤ 1) = false ↔
        ∃ first ∈ state.run.frrpRun.recorded, ∃ second ∈ state.run.frrpRun.recorded, first.2[1]? ≠ second.2[1]?) :=
  measured_graph_rooted _ _ 9 (show [(1, 5)][0]? = some (1, 5) from rfl)

/-- A verdict needs an original path unless the first traceroute fails in a way that is overlooked. -/
theorem verdict_needs_path_iff (settings : Settings) (services : Nat → SourceServices) (limit : Nat)
    (found : sources[index]? = some (src, degree)) :
    ∃ state, (runMeasurements settings services limit sources)[index]? = some state ∧
      (((∃ asn other hasDefaultRoute, .verdict asn other hasDefaultRoute ∈ state.defaultRouteLog) →
          state.run.frrpRun.originalPath.isSome = true) ↔
        ¬ (Starts (services index) ∧ Overlooked (services index).toServices src)) := by
  refine ⟨_, getElem?_runMeasurements found, ?_⟩
  by_cases starts : Starts (services index)
  · obtain ⟨_, _, original, log⟩ := runMeasurement_started starts settings limit src degree
    have judged := judged_unrecorded_iff (services index).toServices src limit
    rw [and_iff_right starts, ← judged, original, Option.isSome_iff_ne_none, not_and]
    refine imp_congr_left ⟨fun ⟨asn, other, flag, member⟩ => ((log asn other flag).mp member).1, fun known => ?_⟩
    exact ⟨_, _, _, (log _ _ _).mpr ⟨known, rfl, rfl, rfl⟩⟩
  · obtain ⟨_, _, _, log⟩ := runMeasurement_unstarted starts settings limit src degree
    refine iff_of_true ?_ fun both => starts both.1
    intro verdict
    obtain ⟨asn, other, flag, member⟩ := verdict
    exact absurd member (log asn other flag)

theorem verdict_needs_path_iff_example :
    ∃ state, (runMeasurements ⟨[], [], []⟩ (fun _ => scriptedSource [[1, 2, 3]]) 9 [(1, 5)])[0]? = some state ∧
      (((∃ asn other hasDefaultRoute, .verdict asn other hasDefaultRoute ∈ state.defaultRouteLog) →
          state.run.frrpRun.originalPath.isSome = true) ↔
        ¬ (Starts (scriptedSource [[1, 2, 3]]) ∧ Overlooked (scripted [[1, 2, 3]]) 1)) :=
  verdict_needs_path_iff _ (fun _ => scriptedSource [[1, 2, 3]]) 9 (show [(1, 5)][0]? = some (1, 5) from rfl)

/-- The request for the first traceroute is refused, and still the source gets the verdict
that it has a default route. -/
theorem verdict_without_path :
    ¬ ∀ state ∈ runMeasurements ⟨[], [], []⟩ (fun _ => { scriptedSource [] with
        create := fun _ => .ok (.failed "You have used up your credits.".toList) }) 9 [(1, 5)],
      .verdict 1 5 true ∈ state.defaultRouteLog → state.run.frrpRun.originalPath.isSome = true := by
  decide +kernel

end Sources

end ActiveBgp.Frrp

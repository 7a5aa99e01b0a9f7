import ActiveBgp.Frrp.Verdicts

namespace ActiveBgp.Frrp

open ActiveBgp.Python ActiveBgp.Data ActiveBgp.Data.Exploration

/-! # Paths are attributed to the poisons they were measured under

The prefix is announced anew by every nested call, and the outer loop goes on with
other poisons.  Each path is kept right after its traceroute was submitted, and each
traceroute is submitted right after its announcement.
-/

namespace Action

def announced? : Action → Option (Option (Finset Asn))
  | .announced asSeq => some asSeq
  | _ => none

def submitted? : Action → Option Nat
  | .submitted number => some number
  | _ => none

def recorded? : Action → Option AnnotatedASPath
  | .recorded path => some path
  | _ => none

def lost? : Action → Option AnnotatedASPath
  | .lost path => some path
  | _ => none

def path? : Action → Option AnnotatedASPath
  | .recorded path => some path
  | .lost path => some path
  | _ => none

/-- The line that the path is logged with. -/
def entry? (src : Asn) : Action → Option FrrpEntry
  | .recorded path =>
      some (.result src (path.atlasMId.getD 0) (path.poisons.getD ∅) path.ases path.rtts)
  | .lost path =>
      some (.lostConnectivity src (path.atlasMId.getD 0) (path.poisons.getD ∅) path.ases path.rtts)
  | _ => none

end Action

def FrrpEntry.isPath : FrrpEntry → Bool
  | .result _ _ _ _ _ => true
  | .lostConnectivity _ _ _ _ _ => true
  | _ => false

/-- The argument of `make_announcement` for a set of poisons. -/
def asSeqOf (poisons : Finset Asn) : Option (Finset Asn) := if poisons = ∅ then none else some poisons

def lastAnnounced (actions : List Action) : Option (Option (Finset Asn)) :=
  (actions.filterMap Action.announced?).getLast?

/-- The traceroute with this number ends with a result, and its path is the given one. -/
def Delivers (services : Services) (src : Asn) (number : Nat) (path : AnnotatedASPath) : Prop :=
  ∃ measurementId hops found, traceroute services number = .ok (.result measurementId hops) ∧
    getTraceroutePath (services.dig number) src hops = .ok found ∧
    path.atlasMId = some measurementId ∧ path.ases = found.asns.items ∧ path.rtts = found.rtts

/-- A path is kept right after the traceroute that found it was submitted, and the
last announcement before that was the one of its poisons. -/
def Attributable (services : Services) (src : Asn) (before : List Action) (action : Action) : Prop :=
  ∀ path, action.path? = some path → ∃ earlier number poisons, before = earlier ++ [.submitted number] ∧
    path.poisons = some poisons ∧ lastAnnounced earlier = some (asSeqOf poisons) ∧ Delivers services src number path

/-- The paths of the run and of the log are the ones that were kept, in order, and
every announcement and every traceroute is among the actions. -/
structure Attributed (services : Services) (src : Asn) (state : RunState) : Prop where
  paths : Chronicle (Attributable services src) state.actions
  recorded : state.frrpRun.recordedPaths = state.actions.filterMap Action.recorded?
  lost : state.frrpRun.lostConnectivityPaths = state.actions.filterMap Action.lost?
  logged : state.frrpLog.filter FrrpEntry.isPath = state.actions.filterMap (Action.entry? src)
  announced : state.announcements = state.actions.filterMap Action.announced?
  submitted : state.actions.filterMap Action.submitted? = List.range state.submissions

variable {services : Services} {src : Asn} {state : RunState} {poisons : Finset Asn}

theorem attributed_opened (services : Services) (src : Asn) : Attributed services src (.opened src) where
  paths := chronicle_singleton.mpr fun _ same => by contradiction
  recorded := rfl
  lost := rfl
  logged := rfl
  announced := rfl
  submitted := rfl

namespace Attributed

section Steps

variable (attributed : Attributed services src state)

include attributed

theorem announce (asSeq : Option (Finset Asn)) (trace : Trace Asn) : Attributed services src { state with
    announcements := state.announcements ++ [asSeq]
    actions := state.actions ++ [.announced asSeq]
    trace := trace } where
  paths := (chronicle_snoc _).mpr ⟨attributed.paths, fun _ same => by contradiction⟩
  recorded := by simp [attributed.recorded, Action.recorded?]
  lost := by simp [attributed.lost, Action.lost?]
  logged := by simp [attributed.logged, Action.entry?]
  announced := by simp [attributed.announced, Action.announced?]
  submitted := by simp [attributed.submitted, Action.submitted?]

theorem submit : Attributed services src { state with
    submissions := state.submissions + 1
    actions := state.actions ++ [.submitted state.submissions] } where
  paths := (chronicle_snoc _).mpr ⟨attributed.paths, fun _ same => by contradiction⟩
  recorded := by simp [attributed.recorded, Action.recorded?]
  lost := by simp [attributed.lost, Action.lost?]
  logged := by simp [attributed.logged, Action.entry?]
  announced := by simp [attributed.announced, Action.announced?]
  submitted := by simp [attributed.submitted, Action.submitted?, List.range_succ]

theorem enter (caller callee : Finset Asn) : Attributed services src (state.enter caller callee) where
  paths := (chronicle_snoc _).mpr ⟨attributed.paths, fun _ same => by contradiction⟩
  recorded := by simp [RunState.enter, attributed.recorded, Action.recorded?]
  lost := by simp [RunState.enter, attributed.lost, Action.lost?]
  logged := by simp [RunState.enter, attributed.logged, Action.entry?]
  announced := by simp [RunState.enter, attributed.announced, Action.announced?]
  submitted := by simp [RunState.enter, attributed.submitted, Action.submitted?]

theorem besides {run : FRRPRun} {graph : DiGraph Asn} {log : List FrrpEntry} {trace : Trace Asn}
    (recorded : run.recordedPaths = state.frrpRun.recordedPaths)
    (lost : run.lostConnectivityPaths = state.frrpRun.lostConnectivityPaths)
    (others : log.filter FrrpEntry.isPath = state.frrpLog.filter FrrpEntry.isPath) :
    Attributed services src { state with frrpRun := run, graph := graph, frrpLog := log, trace := trace } where
  paths := attributed.paths
  recorded := recorded.trans attributed.recorded
  lost := lost.trans attributed.lost
  logged := others.trans attributed.logged
  announced := attributed.announced
  submitted := attributed.submitted

end Steps

section Keeping

variable {earlier : List Action} {number : Nat} {measurementId : Int} {hops : List Hop} {path : TraceroutePath}
  (attributed : Attributed services src state) (just : state.actions = earlier ++ [.submitted number])
  (announced : lastAnnounced earlier = some (asSeqOf poisons))
  (answered : traceroute services number = .ok (.result measurementId hops))
  (found : getTraceroutePath (services.dig number) src hops = .ok path)

include just announced answered found

theorem attributable {identity : Nat} {kept : Action}
    (same : kept.path? = some (.annotate identity poisons measurementId path)) :
    Attributable services src state.actions kept := by
  intro other isPath
  rw [same, Option.some.injEq] at isPath
  subst isPath
  have timed := (getTraceroutePath_spec found).1
  obtain ⟨_, given, ases⟩ := AnnotatedASPath.annotate_spec identity poisons measurementId timed
  exact ⟨earlier, number, poisons, just, given, announced, measurementId, hops, path, answered, found, rfl, ases,
    AnnotatedASPath.annotate_rtts identity poisons measurementId timed⟩

include attributed

theorem record (keep : AnnotatedASPath → FRRPRun → FRRPRun)
    (kept : (keep (.annotate state.objects poisons measurementId path) state.frrpRun).recordedPaths =
      state.frrpRun.recordedPaths ++ [.annotate state.objects poisons measurementId path])
    (lost : (keep (.annotate state.objects poisons measurementId path) state.frrpRun).lostConnectivityPaths =
      state.frrpRun.lostConnectivityPaths) (graph : DiGraph Asn) :
    Attributed services src
      (({ state with graph := graph } : RunState).record src keep measurementId poisons path) := by
  have timed := (getTraceroutePath_spec found).1
  obtain ⟨_, given, ases⟩ := AnnotatedASPath.annotate_spec state.objects poisons measurementId timed
  have rtts := AnnotatedASPath.annotate_rtts state.objects poisons measurementId timed
  have entry : Action.entry? src (.recorded (.annotate state.objects poisons measurementId path)) =
      some (.result src measurementId poisons path.asns.items path.rtts) := by
    rw [Action.entry?, given, ases, rtts]
    rfl
  constructor
  case paths => exact (chronicle_snoc _).mpr ⟨attributed.paths, attributable just announced answered found rfl⟩
  case recorded => simp [RunState.record, kept, attributed.recorded, Action.recorded?]
  case lost => simp [RunState.record, lost, attributed.lost, Action.lost?]
  case logged => simp [RunState.record, attributed.logged, entry, FrrpEntry.isPath]
  case announced => simp [RunState.record, attributed.announced, Action.announced?]
  case submitted => simp [RunState.record, attributed.submitted, Action.submitted?]

theorem lose : Attributed services src (state.lose src measurementId poisons path) := by
  have timed := (getTraceroutePath_spec found).1
  obtain ⟨_, given, ases⟩ := AnnotatedASPath.annotate_spec state.objects poisons measurementId timed
  have rtts := AnnotatedASPath.annotate_rtts state.objects poisons measurementId timed
  have entry : Action.entry? src (.lost (.annotate state.objects poisons measurementId path)) =
      some (.lostConnectivity src measurementId poisons path.asns.items path.rtts) := by
    rw [Action.entry?, given, ases, rtts]
    rfl
  constructor
  case paths => exact (chronicle_snoc _).mpr ⟨attributed.paths, attributable just announced answered found rfl⟩
  case recorded =>
    refine Eq.trans attributed.recorded ?_
    simp [RunState.lose, Action.recorded?]
  case lost => simp [RunState.lose, FRRPRun.addLostConnectivityPath, attributed.lost, Action.lost?]
  case logged => simp [RunState.lose, attributed.logged, entry, FrrpEntry.isPath]
  case announced => simp [RunState.lose, attributed.announced, Action.announced?]
  case submitted => simp [RunState.lose, attributed.submitted, Action.submitted?]

end Keeping

end Attributed

section Measure

theorem lastAnnounced_snoc (actions : List Action) (asSeq : Option (Finset Asn)) :
    lastAnnounced (actions ++ [.announced asSeq]) = some asSeq := by
  simp [lastAnnounced, Action.announced?]

theorem measurePoisons_attributed (coherent : Coherent src state) (attributed : Attributed services src state)
    (asn : Asn) : Outcome (Attributed services src) (measurePoisons services src poisons asn state) := by
  have announced := attributed.announce (some (insert asn poisons)) (state.trace ++ [.tried poisons asn])
  have last : lastAnnounced (state.actions ++ [.announced (some (insert asn poisons))]) =
      some (asSeqOf (insert asn poisons)) := by
    rw [lastAnnounced_snoc, asSeqOf, if_neg (Finset.insert_ne_empty _ _)]
  unfold measurePoisons
  rw [Effect.bind_eq, announce_eq]
  cases services.announce state.announcements.length with
  | error error => exact announced
  | ok _ =>
  have submitted := announced.submit
  simp only [Effect.ofExcept_ok]
  rw [Effect.bind_eq, nextTraceroute_eq]
  cases answered : traceroute services state.submissions with
  | error error => exact submitted
  | ok answer =>
  cases answer with
  | notSubmitted => exact submitted.besides rfl rfl rfl
  | notCovered => exact submitted.besides rfl rfl rfl
  | notFinished => exact submitted.besides rfl rfl rfl
  | notParsed => exact submitted.besides rfl rfl rfl
  | result measurementId hops =>
      simp only
      rw [Effect.bind_eq, addPath_eq]
      cases found : getTraceroutePath (services.dig state.submissions) src hops with
      | error error => exact submitted
      | ok path =>
          cases success : path.success with
          | false =>
              simp only [success, Bool.false_eq_true, if_false]
              exact (submitted.lose rfl last answered found).besides rfl rfl rfl
          | true =>
              simp only [success, if_true]
              cases new : (addEdges (pairwise path.asns.items) state.graph).2 with
              | false => exact submitted.besides rfl rfl rfl
              | true =>
                  have timed := (getTraceroutePath_spec found).1
                  have later (other : AnnotatedASPath) (member : other ∈ state.frrpRun.recordedPaths) :
                      other.identity <
                        (AnnotatedASPath.annotate state.objects (insert asn poisons) measurementId path).identity := by
                    rw [(AnnotatedASPath.annotate_spec _ _ _ timed).1]
                    exact coherent.made other member
                  have kept := submitted.record rfl last answered found (fun path run => run.addDiscoveredPath path)
                    (FRRPRun.recordedPaths_addDiscoveredPath later) (FRRPRun.lostConnectivityPaths_addDiscoveredPath _ _)
                  exact (kept _).enter _ _

theorem poisonTurn_attributed (services : Services) (src : Asn) :
    ((searchSetting src).keeping (Attributed services src)).Follows (poisonTurn services src) := by
  refine (poisonTurn_follows services src).keep fun poisons asn state coherent _ attributed => ?_
  rcases poisonTurn_cases coherent services poisons asn with ⟨_, done⟩ | ⟨_, done⟩
  · rw [done]
    exact attributed
  · rw [done]
    exact measurePoisons_attributed coherent attributed asn

theorem measureOriginal_attributed (services : Services) (src : Asn) :
    Outcome (Attributed services src) (measureOriginal services src ∅ (.opened src)) := by
  have last : lastAnnounced (RunState.opened src).actions = some (asSeqOf ∅) := rfl
  have submitted := (attributed_opened services src).submit
  unfold measureOriginal
  rw [Effect.bind_eq, nextTraceroute_eq]
  cases answered : traceroute services (RunState.opened src).submissions with
  | error error => exact submitted
  | ok answer =>
  cases answer with
  | notSubmitted => exact submitted
  | notCovered => exact submitted
  | notFinished => exact submitted
  | notParsed => exact submitted
  | result measurementId hops =>
      simp only
      rw [Effect.bind_eq, addPath_eq]
      cases found : getTraceroutePath (services.dig (RunState.opened src).submissions) src hops with
      | error error => exact submitted
      | ok path =>
          cases success : path.success with
          | false =>
              simp only [success, Bool.false_eq_true, if_false]
              exact (submitted.lose rfl last answered found).besides rfl rfl (by simp [FrrpEntry.isPath])
          | true =>
              simp only [success, if_true]
              cases new : (addEdges (pairwise path.asns.items) (RunState.opened src).graph).2 with
              | false => exact submitted.besides rfl rfl (by simp [FrrpEntry.isPath])
              | true =>
                  exact submitted.record rfl last answered found (fun path run =>
                    { run with originalPath := some path }) rfl rfl _

end Measure

section Source

variable {services : SourceServices} {settings : Settings} {degree : Int}

theorem conclude_attributed (settings : Settings) (degree : Int) (err : Option Int) {source : SourceState}
    (attributed : Attributed services.toServices src source.run) :
    Attributed services.toServices src (final (conclude settings services src degree err source)).run := by
  have failed (msg error : Text) : Attributed services.toServices src (source.fail src msg error).run :=
    attributed.besides rfl rfl (by simp [FrrpEntry.isPath])
  unfold conclude
  split
  · exact failed _ _
  split
  · exact failed _ _
  simp only [Effect.bind_eq, Effect.modify_apply]
  have decided : Attributed services.toServices src (source.decideDefaultRoute src degree).run :=
    attributed.besides rfl rfl rfl
  cases services.drawGraph with
  | error error => exact decided
  | ok _ =>
      simp only [Effect.ofExcept_ok]
      cases services.writeGpickle with
      | error error => exact decided
      | ok _ => exact decided.besides rfl rfl (by simp [FrrpEntry.isPath])

/-- Every path that the round for a source records or loses comes from a traceroute that was
submitted under its own poisons. -/
theorem paths_attributed (settings : Settings) (services : SourceServices) (limit : Nat) (src : Asn) (degree : Int) :
    Attributed services.toServices src (sourceState settings services limit src degree).run := by
  have started : Attributed services.toServices src (SourceState.start src).run :=
    ⟨chronicle_nil, rfl, rfl, rfl, rfl, rfl⟩
  unfold sourceState runMeasurement
  rw [Effect.bind_eq]
  cases services.findProbesByAsn with
  | error error => exact started
  | ok probes =>
  simp only [Effect.ofExcept_ok]
  cases probes with
  | none => exact started.besides rfl rfl rfl
  | some probes =>
  cases probes with
  | nil => exact started.besides rfl rfl rfl
  | cons probe probes =>
      simp only
      rw [Effect.bind_eq]
      cases announced : services.announce 0 with
      | error error =>
          simp only [measureSource, Effect.bind_eq, Effect.modify_apply, announced, Effect.ofExcept_error]
          exact attributed_opened services.toServices src
      | ok _ =>
          have measured := measured_keeps (poisonTurn_attributed services.toServices src)
            (measureOriginal_attributed services.toServices src) limit
          unfold Frrp.measured at measured
          rw [measureSource_eq announced]
          cases done : outermost services.toServices src limit with
          | error error after =>
              rw [done] at measured
              exact measured
          | ok code after =>
              rw [done] at measured
              exact conclude_attributed settings degree code (measured.besides rfl rfl rfl)

end Source

end ActiveBgp.Frrp

import ActiveBgp.Frrp.FRRPRun
import ActiveBgp.Data.Search

namespace ActiveBgp.Frrp

open ActiveBgp.Python ActiveBgp.Data

/-! # The measurement of one source

The program poisons the ASes of a path one after another, announces the prefix
with each set of poisons, and measures the path of the source again.  What comes
from outside is a parameter, so that a statement about all parameters is one
about every sequence of outcomes.
-/

inductive AtlasResponse where
  | created (measurements : Option (List Int))
  | failed (response : Text)

/-- What comes from outside: announcements and traceroutes are numbered in the
order in which they are made. -/
structure Services where
  announce : Nat → Except PyError Unit
  create : Nat → Except PyError AtlasResponse
  poll : Nat → Nat → Except PyError Poll
  dig : Nat → Nat → Text → Except PyError Text

/-- The lines with the codes -1, 1, 0, 2 and -2. -/
inductive FrrpEntry where
  | error (src : Asn) (msg : Text)
  | finalGraph (src : Asn) (graphPath : Text)
  | result (src : Asn) (atlas : Int) (poisons : Finset Asn) (path : List Asn) (rtts : List ℚ)
  | lostConnectivity (src : Asn) (atlas : Int) (poisons : Finset Asn) (path : List Asn) (rtts : List ℚ)
  | invalidResult (src : Asn)

/-- A prefix is announced, a traceroute submitted, its path kept, or a new path measured
under more poisons. -/
inductive Action where
  | announced (asSeq : Option (Finset Asn))
  | submitted (number : Nat)
  | recorded (path : AnnotatedASPath)
  | lost (path : AnnotatedASPath)
  | entered (caller callee : Finset Asn)

/-- The graph, the cache and the run object of one source, the log, the counts of
objects and traceroutes, and the arguments of all announcements.  `actions` and `trace`
are not in the program: they keep what happened, in order. -/
structure RunState where
  graph : DiGraph Asn
  poisonCache : PoisonCache
  frrpRun : FRRPRun
  frrpLog : List FrrpEntry
  objects : Nat
  submissions : Nat
  announcements : List (Option (Finset Asn))
  actions : List Action
  trace : Exploration.Trace Asn

variable (services : Services) (src : Asn)

/-- `submit_traceroute`; `some (-1)` where no probe is found, `none` where the request fails otherwise. -/
def submitTraceroute (number : Nat) : Except PyError (Option Int) := do
  match ← services.create number with
  | .failed response =>
      if "Your selected ASN is not covered by our network.".toList <:+: response then return some (-1)
      return none
  | .created measurements =>
      let measurements ← orRaise .keyError measurements
      return some (← orRaise .indexError measurements.head?)

inductive Answer where
  | notSubmitted
  | notCovered
  | notFinished
  | notParsed
  | result (measurementId : Int) (hops : List Hop)

/-- The traceroute is submitted and waited for, and its result is looked up. -/
def traceroute (number : Nat) : Except PyError Answer := do
  match ← submitTraceroute services number with
  | none => return .notSubmitted
  | some measurementId =>
      if measurementId = -1 then return .notCovered
      match ← waitOnMeasurement (services.poll number) with
      | none => return .notFinished
      | some answer =>
          match answer.result with
          | none => return .notParsed
          | some hops => return .result measurementId hops

/-- The loop of `add_path` over the pairs of consecutive ASes, and whether one of them is new. -/
def addEdges : List (Asn × Asn) → DiGraph Asn → DiGraph Asn × Bool
  | [], graph => (graph, false)
  | edge :: rest, graph =>
      if graph.hasEdge edge then addEdges rest graph else ((addEdges rest (graph.addEdge edge)).1, true)

def RunState.lose (measurementId : Int) (poisons : Finset Asn) (path : TraceroutePath) (state : RunState) : RunState :=
  { state with
    frrpLog := state.frrpLog ++ [.lostConnectivity src measurementId poisons path.asns.items path.rtts]
    frrpRun := state.frrpRun.addLostConnectivityPath (.annotate state.objects poisons measurementId path)
    objects := state.objects + 1
    actions := state.actions ++ [.lost (.annotate state.objects poisons measurementId path)] }

/-- `add_path` returns the path and whether it is new, or `none` where the connectivity is lost. -/
def addPath (number : Nat) (result : List Hop) (measurementId : Int) (poisons : Finset Asn) :
    Effect RunState (Option (Bool × TraceroutePath)) := do
  let path ← Effect.ofExcept (getTraceroutePath (services.dig number) src result)
  if path.success then
    let state ← get
    let (graph, newPath) := addEdges (pairwise path.asns.items) state.graph
    set { state with graph := graph }
    return some (newPath, path)
  else
    modify (RunState.lose src measurementId poisons path)
    return none

/-- A new path goes to the cache, to the log and, by `keep`, to the run. -/
def RunState.record (keep : AnnotatedASPath → FRRPRun → FRRPRun) (measurementId : Int) (poisons : Finset Asn)
    (path : TraceroutePath) (state : RunState) : RunState :=
  { state with
    poisonCache := state.poisonCache.addPoisonSet poisons path.asns.items path.rtts
    frrpLog := state.frrpLog ++ [.result src measurementId poisons path.asns.items path.rtts]
    frrpRun := keep (.annotate state.objects poisons measurementId path) state.frrpRun
    objects := state.objects + 1
    actions := state.actions ++ [.recorded (.annotate state.objects poisons measurementId path)]
    trace := state.trace ++ [.recorded poisons path.asns.items] }

def nextTraceroute : Effect RunState (Nat × Answer) := do
  let state ← get
  set { state with
    submissions := state.submissions + 1
    actions := state.actions ++ [Action.submitted state.submissions] }
  return (state.submissions, ← Effect.ofExcept (traceroute services state.submissions))

/-- The part of `measure_single_source` for a call without a path: the path that
it measures, or the code with which it returns. -/
def measureOriginal (poisons : Finset Asn) : Effect RunState (Except (Option Int) (List Asn)) := do
  match ← nextTraceroute services with
  | (_, .notSubmitted) => return .error (some (-3))
  | (_, .notCovered) => return .error (some (-1))
  | (_, .notFinished) => return .error (some (-2))
  | (_, .notParsed) => return .error (some (-3))
  | (number, .result measurementId hops) =>
      match ← addPath services src number hops measurementId poisons with
      | some (true, path) =>
          modify (RunState.record src (fun path run => { run with originalPath := some path }) measurementId poisons path)
          return .ok path.asns.items
      | _ =>
          modify fun state => { state with frrpLog := state.frrpLog ++ [.invalidResult src] }
          return .error none

/-- `make_announcement` with the poisons and the element that is added to them. -/
def announce (poisons : Finset Asn) (currentPathAsn : Asn) : Effect RunState Unit := do
  let state ← get
  set { state with
    announcements := state.announcements ++ [some (insert currentPathAsn poisons)]
    actions := state.actions ++ [Action.announced (some (insert currentPathAsn poisons))]
    trace := state.trace ++ [Exploration.Moment.tried poisons currentPathAsn] }
  Effect.ofExcept (services.announce state.announcements.length)

def note (moment : Exploration.Moment Asn) (turn : Exploration.Turn Asn) : Effect RunState (Exploration.Turn Asn) := do
  modify fun state => { state with trace := state.trace ++ [moment] }
  return turn

def RunState.enter (caller callee : Finset Asn) (state : RunState) : RunState :=
  { state with actions := state.actions ++ [.entered caller callee] }

/-- The part of the loop that measures a set of poisons which is not in the cache. -/
def measurePoisons (poisons : Finset Asn) (currentPathAsn : Asn) : Effect RunState (Exploration.Turn Asn) := do
  let currentPoisonSet := insert currentPathAsn poisons
  announce services poisons currentPathAsn
  match ← nextTraceroute services with
  | (_, .notSubmitted) => note (.refused currentPoisonSet) .quit
  | (_, .notCovered) => note (.refused currentPoisonSet) .quit
  | (_, .notFinished) => note (.fruitless currentPoisonSet) .moveOn
  | (_, .notParsed) => note (.fruitless currentPoisonSet) .moveOn
  | (number, .result measurementId hops) =>
      match ← addPath services src number hops measurementId currentPoisonSet with
      | some (true, path) =>
          modify (RunState.record src (fun path run => run.addDiscoveredPath path) measurementId currentPoisonSet path)
          modify (RunState.enter poisons currentPoisonSet)
          return .descend path.asns.items
      | _ => note (.fruitless currentPoisonSet) .moveOn

/-- One round of the loop over the ASes of a path. -/
def poisonTurn (poisons : Finset Asn) (currentPathAsn : Asn) : Effect RunState (Exploration.Turn Asn) := do
  let currentPoisonSet := insert currentPathAsn poisons
  let state ← get
  if currentPathAsn = src ∨ currentPathAsn = 3450 then return .moveOn
  else if 12083 ∈ currentPoisonSet ∧ 3356 ∈ currentPoisonSet then return .moveOn
  else if state.poisonCache.getPath currentPoisonSet then return .moveOn
  else measurePoisons services src poisons currentPathAsn

/-- The loop over the ASes of a path; `recurse` is the nested call. -/
def poisonLoop (recurse : List Asn → Finset Asn → Effect RunState (Option Int)) (poisons : Finset Asn)
    (path : List Asn) : Effect RunState Unit :=
  Exploration.searchLoop (poisonTurn services src) recurse poisons path

/-- The body of `measure_single_source`; the empty list stands for a path that is not given. -/
def measureBody (recurse : List Asn → Finset Asn → Effect RunState (Option Int)) (path : List Asn)
    (poisons : Finset Asn) : Effect RunState (Option Int) := do
  match path with
  | [] =>
      match ← measureOriginal services src poisons with
      | .error code => return code
      | .ok path =>
          poisonLoop services src recurse poisons path
          return none
  | path =>
      poisonLoop services src recurse poisons path
      return none

/-- `limit` calls may be nested in the outermost one. -/
def measureSingleSource : Nat → List Asn → Finset Asn → Effect RunState (Option Int)
  | 0 => measureBody services src fun _ _ => throw .recursionError
  | limit + 1 => measureBody services src (measureSingleSource limit)

end ActiveBgp.Frrp

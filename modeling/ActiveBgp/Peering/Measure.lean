import ActiveBgp.Peering.Traceroute
import ActiveBgp.Frrp.Measure

namespace ActiveBgp.Peering

open ActiveBgp.Python ActiveBgp.Data
open ActiveBgp.Frrp (Asn Services TracedPath addEdges waitOnMeasurement)

/-! # The measurement of one source

The search is that of `frrp.py`, but no announcement has more than three poisons,
several probes are tried for the first path, and no exception is caught.
-/

def getPoisonId (poisons : Finset Asn) : Text := ",".toList.intercalate ((sorted poisons).map Text.ofInt)

abbrev PoisonCache := Dict Text (List Asn × List Text)

/-- An entry is a pair, so it is never falsy. -/
def PoisonCache.getPath (cache : PoisonCache) (poisons : Finset Asn) : Bool := (cache.get? (getPoisonId poisons)).isSome

/-- The lines with the codes -1, 1, 0, 2 and 3. -/
inductive FrrpEntry where
  | error (src : Asn) (msg : Text)
  | finalGraph (src : Asn) (graphPath : Text)
  | result (src : Asn) (atlas : Int) (poisons : Finset Asn) (path : List Asn) (rtts : List (Asn × ℚ))
  | lostConnectivity (src : Asn) (atlas : Int) (poisons : Finset Asn) (path : List Asn) (rtts : List (Asn × ℚ))
  | noMorePoisons (src : Asn)

/-- What comes from outside, and the prefix that is announced. -/
structure Experiment extends Services where
  floats : Floats
  routePrefix : Text

/-- The graph, the cache and the log of one source, the probe that is handed to the
nested calls, the probes of all traceroutes and the arguments of all announcements.
`trace` is not in the program. -/
structure RunState where
  graph : DiGraph Asn
  poisonCache : PoisonCache
  frrpLog : List FrrpEntry
  workingProbe : Option Int
  submissions : List (Option Int)
  announcements : List (Option (Finset Asn))
  trace : Exploration.Trace Asn

variable (experiment : Experiment) (src : Asn)

/-- `submit_traceroute` computes its target before it asks for the measurement. -/
def submitTraceroute (number : Nat) : Except PyError (Option Int) := do
  let _ ← prefixLoopback experiment.routePrefix
  Frrp.submitTraceroute experiment.toServices number

inductive Answer where
  | notSubmitted
  | notCovered
  | notFinished
  | finished (measurementId : Int) (result : Frrp.Traceroute)

/-- The traceroute is submitted and waited for. -/
def traceroute (number : Nat) : Except PyError Answer := do
  match ← submitTraceroute experiment number with
  | none => return .notSubmitted
  | some measurementId =>
      if measurementId = -1 then return .notCovered
      match ← waitOnMeasurement (experiment.poll number) with
      | none => return .notFinished
      | some result => return .finished measurementId result

def nextTraceroute (probe : Option Int) : Effect RunState (Nat × Answer) := do
  let state ← get
  set { state with submissions := state.submissions ++ [probe] }
  return (state.submissions.length, ← Effect.ofExcept (traceroute experiment state.submissions.length))

def RunState.lose (measurementId : Int) (poisons : Finset Asn) (path : TracedPath) (state : RunState) : RunState :=
  { state with frrpLog := state.frrpLog ++
    [.lostConnectivity src measurementId poisons path.asns.items path.rtts.entries] }

/-- `add_path` returns the path and whether it is new, or `none` where the connectivity is lost. -/
def addPath (number : Nat) (result : Frrp.Traceroute) (measurementId : Int) (poisons : Finset Asn) :
    Effect RunState (Option (Bool × TracedPath)) := do
  let hops ← Effect.ofExcept (orRaise .keyError result.result)
  let path ← Effect.ofExcept
    (getTraceroutePath experiment.floats experiment.routePrefix (experiment.dig number) src hops)
  if path.success then
    let state ← get
    let (graph, newPath) := addEdges (pairwise path.asns.items) state.graph
    set { state with graph := graph }
    return some (newPath, path)
  else
    modify (RunState.lose src measurementId poisons path)
    return none

/-- A new path goes to the cache and to the log. -/
def RunState.record (measurementId : Int) (poisons : Finset Asn) (path : TracedPath) (state : RunState) : RunState :=
  { state with
    poisonCache := state.poisonCache.set (getPoisonId poisons)
      (path.asns.items, getKvString experiment.floats path.rtts.entries)
    frrpLog := state.frrpLog ++ [.result src measurementId poisons path.asns.items path.rtts.entries]
    trace := state.trace ++ [.recorded poisons path.asns.items] }

/-- The loop over the probes: what the first one with a result measured, or the code
with which the call returns. -/
def tryProbes : List Int → Effect RunState (Except Int (Nat × Int × Frrp.Traceroute))
  | [] => return .error (-2)
  | probe :: rest => do
      match ← nextTraceroute experiment (some probe) with
      | (_, .notSubmitted) => return .error (-3)
      | (_, .notCovered) => return .error (-1)
      | (_, .notFinished) => tryProbes rest
      | (number, .finished measurementId result) =>
          modify fun state => { state with workingProbe := some probe }
          return .ok (number, measurementId, result)

/-- The part of `measure_single_source` for a call without a path: the path that it
measures, or what it returns. -/
def measureOriginal (probes : List Int) (poisons : Finset Asn) : Effect RunState (Except (Option Int) (List Asn)) := do
  modify fun state => { state with workingProbe := none }
  match ← tryProbes experiment probes with
  | .error code => return .error (some code)
  | .ok (number, measurementId, result) =>
      match ← addPath experiment src number result measurementId poisons with
      | some (true, path) =>
          modify (RunState.record experiment src measurementId poisons path)
          return .ok path.asns.items
      | _ => return .error none

/-- `make_announcement` leaves the program where the command fails. -/
def makeAnnouncement (number : Nat) : Except PyError Unit :=
  match experiment.announce number with
  | .error .calledProcessError => .error .systemExit
  | called => called

/-- The announcement with the poisons and the element that is added to them. -/
def announce (poisons : Finset Asn) (currentPathAsn : Asn) : Effect RunState Unit := do
  let state ← get
  set { state with
    announcements := state.announcements ++ [some (insert currentPathAsn poisons)]
    trace := state.trace ++ [Exploration.Moment.tried poisons currentPathAsn] }
  Effect.ofExcept (makeAnnouncement experiment state.announcements.length)

def note (moment : Exploration.Moment Asn) (turn : Exploration.Turn Asn) : Effect RunState (Exploration.Turn Asn) := do
  modify fun state => { state with trace := state.trace ++ [moment] }
  return turn

/-- The part of the loop that measures a set of poisons which is not in the cache. -/
def measurePoisons (poisons : Finset Asn) (currentPathAsn : Asn) : Effect RunState (Exploration.Turn Asn) := do
  let currentPoisonSet := insert currentPathAsn poisons
  announce experiment poisons currentPathAsn
  match ← nextTraceroute experiment (← get).workingProbe with
  | (_, .notSubmitted) => note (.refused currentPoisonSet) .quit
  | (_, .notCovered) => note (.refused currentPoisonSet) .quit
  | (_, .notFinished) => note (.fruitless currentPoisonSet) .moveOn
  | (number, .finished measurementId result) =>
      match ← addPath experiment src number result measurementId currentPoisonSet with
      | some (true, path) =>
          modify (RunState.record experiment src measurementId currentPoisonSet path)
          return .descend path.asns.items
      | _ => note (.fruitless currentPoisonSet) .moveOn

/-- One round of the loop over the ASes of a path. -/
def poisonTurn (poisons : Finset Asn) (currentPathAsn : Asn) : Effect RunState (Exploration.Turn Asn) := do
  let currentPoisonSet := insert currentPathAsn poisons
  let state ← get
  if currentPathAsn = src ∨ currentPathAsn = 47065 then return .moveOn
  else if poisons.card + 1 > 3 then
    set { state with frrpLog := state.frrpLog ++ [FrrpEntry.noMorePoisons src] }
    return .moveOn
  else if state.poisonCache.getPath currentPoisonSet then return .moveOn
  else measurePoisons experiment src poisons currentPathAsn

/-- The body of `measure_single_source`; the empty list stands for a path that is not given. -/
def measureBody (probes : List Int) (recurse : List Asn → Finset Asn → Effect RunState (Option Int))
    (path : List Asn) (poisons : Finset Asn) : Effect RunState (Option Int) := do
  match path with
  | [] =>
      match ← measureOriginal experiment src probes poisons with
      | .error code => return code
      | .ok path =>
          Exploration.searchLoop (poisonTurn experiment src) recurse poisons path
          return none
  | path =>
      Exploration.searchLoop (poisonTurn experiment src) recurse poisons path
      return none

/-- `limit` calls may be nested in the outermost one. -/
def measureSingleSource (probes : List Int) (limit : Nat) : List Asn → Finset Asn → Effect RunState (Option Int) :=
  Exploration.unroll (measureBody experiment src probes) .recursionError (limit + 1)

/-- The state after the opening announcement. -/
def RunState.opened (src : Asn) : RunState where
  graph := DiGraph.empty.addNode src
  poisonCache := .empty
  frrpLog := []
  workingProbe := none
  submissions := []
  announcements := [none]
  trace := []

end ActiveBgp.Peering

import ActiveBgp.Frrp.SingleSource

namespace ActiveBgp.Frrp

open ActiveBgp.Python ActiveBgp.Data ActiveBgp.Data.Exploration

/-- The lines `-1|src,SRC,msg,MSG` and `0|ASN,DEGREE,HAS_DEFAULT_ROUTE`. -/
inductive DefaultRouteEntry where
  | error (src : Asn) (msg : Text)
  | verdict (asn : Asn) (degree : Int) (hasDefaultRoute : Bool)
deriving DecidableEq

structure SourceServices extends Services where
  findProbesByAsn : Except PyError (Option (List Int))
  drawGraph : Except PyError Unit
  writeGpickle : Except PyError Unit

/-- What the measurement of one source adds to the logs and files. -/
structure SourceState where
  run : RunState
  defaultRouteLog : List DefaultRouteEntry
  misnomerAtlasAses : List Asn
  rerunAtlasAses : List Asn
  runFile : Option FRRPRun

/-- The parts of file names that do not depend on the source. -/
structure Settings where
  timestamp : Text
  expStart : Text
  expId : Text

def Settings.dirName (settings : Settings) : Text :=
  "results/".toList ++ settings.expId ++ "_".toList ++ settings.timestamp

def Settings.gpickleName (settings : Settings) (src : Asn) : Text :=
  settings.dirName ++ "/graph_results/atlas-as-".toList ++ Text.ofInt src ++ "-".toList ++ settings.expStart ++
    "-".toList ++ settings.expId ++ "-measured-graph.gpickle".toList

namespace SourceState

variable (src : Asn)

/-- No graph yet, and no announcement. -/
def start : SourceState where
  run := { RunState.opened src with graph := .empty, announcements := [], actions := [] }
  defaultRouteLog := []
  misnomerAtlasAses := []
  rerunAtlasAses := []
  runFile := none

/-- An error goes to both logs and to the run, which is dumped. -/
def fail (msg error : Text) (state : SourceState) : SourceState :=
  let frrpRun := state.run.frrpRun.addError error
  { state with
    run := { state.run with frrpRun := frrpRun, frrpLog := state.run.frrpLog ++ [.error src msg] }
    defaultRouteLog := state.defaultRouteLog ++ [.error src msg]
    runFile := some frrpRun }

def decideDefaultRoute (degree : Int) (state : SourceState) : SourceState :=
  let hasDefaultRoute := decide (state.run.graph.outDegree src ≤ 1)
  { state with
    run := { state.run with frrpRun := { state.run.frrpRun with hasDefaultRoute := hasDefaultRoute } }
    defaultRouteLog := state.defaultRouteLog ++ [.verdict src degree hasDefaultRoute] }

def finish (gpickleName : Text) (state : SourceState) : SourceState :=
  let frrpRun := { state.run.frrpRun with graphPath := some gpickleName }
  { state with
    run := { state.run with frrpRun := frrpRun, frrpLog := state.run.frrpLog ++ [.finalGraph src gpickleName] }
    runFile := some frrpRun }

end SourceState

def RunState.keepCache (state : RunState) : RunState :=
  { state with frrpRun.poisonCache := some state.poisonCache }

section Loop

variable (settings : Settings) (services : SourceServices) (limit : Nat) (src : Asn) (degree : Int)

/-- The opening announcement and the measurement of a source with a probe. -/
def measureSource : Effect SourceState (Option Int) := do
  modify fun state => { state with run := .opened src }
  Effect.ofExcept (services.announce 0)
  let err ← Effect.within SourceState.run (fun run state => { state with run := run })
    (measureSingleSource services.toServices src limit [] ∅)
  modify fun state => { state with run := state.run.keepCache }
  return err

/-- What follows the measurement, by the code that it returned. -/
def conclude (err : Option Int) : Effect SourceState Unit := do
  if err = some (-1) then
    modify fun state => { state with misnomerAtlasAses := state.misnomerAtlasAses ++ [src] }
    modify (SourceState.fail src "atlas_source_traceroute_error".toList "source_traceroute_error".toList)
  else if err = some (-2) then
    modify fun state => { state with rerunAtlasAses := state.rerunAtlasAses ++ [src] }
    modify (SourceState.fail src "atlas_source_empty_response".toList "empty_source_response".toList)
  else
    modify (SourceState.decideDefaultRoute src degree)
    Effect.ofExcept services.drawGraph
    Effect.ofExcept services.writeGpickle
    modify (SourceState.finish src (settings.gpickleName src))

/-- The body of the loop over the sources. -/
def runMeasurement : Effect SourceState Unit := do
  match ← Effect.ofExcept services.findProbesByAsn with
  | none | some [] =>
      modify fun state => { state with run.frrpRun.noStableProbe := true }
      modify (SourceState.fail src "no_stable_probe".toList "No stable probe".toList)
  | some _ =>
      let err ← measureSource services limit src
      conclude settings services src degree err

end Loop

/-- What the round of the loop for a source leaves behind. -/
def sourceState (settings : Settings) (services : SourceServices) (limit : Nat) (src : Asn) (degree : Int) : SourceState :=
  final (runMeasurement settings services limit src degree (.start src))

/-- The loop over the sources; the rounds do not depend on each other. -/
def runMeasurements (settings : Settings) (services : Nat → SourceServices) (limit : Nat) (sources : List (Asn × Int)) :
    List SourceState :=
  sources.mapIdx fun index source => sourceState settings (services index) limit source.1 source.2

end ActiveBgp.Frrp

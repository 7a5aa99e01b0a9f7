import ActiveBgp.Peering.Measure
import ActiveBgp.Frrp.Measurements

namespace ActiveBgp.Peering

open ActiveBgp.Python ActiveBgp.Data
open ActiveBgp.Frrp (Asn Services DefaultRouteEntry)

structure SourceServices extends Services where
  findProbesByAsn : Except PyError (Option (List Int))
  drawGraph : Except PyError Unit
  writeGpickle : Except PyError Unit

/-- The prefix that is announced, and the parts of file names that do not depend on the source. -/
structure Settings where
  routePrefix : Text
  expStart : Text
  expId : Text

def Settings.gpickleName (settings : Settings) (src : Asn) : Text :=
  "graph_results/atlas-as-".toList ++ Text.ofInt src ++ "-".toList ++ settings.expStart ++ "-".toList ++
    settings.expId ++ "-measured-graph.gpickle".toList

/-- What the measurement of one source adds to the logs and files. -/
structure SourceState where
  run : RunState
  defaultRouteLog : List DefaultRouteEntry
  misnomerAtlasAses : List Asn
  rerunAtlasAses : List Asn

namespace SourceState

variable (src : Asn)

def start : SourceState := ⟨{ RunState.opened src with announcements := [] }, [], [], []⟩

/-- An error goes to both logs. -/
def fail (msg : Text) (state : SourceState) : SourceState :=
  { state with
    run := { state.run with frrpLog := state.run.frrpLog ++ [.error src msg] }
    defaultRouteLog := state.defaultRouteLog ++ [.error src msg] }

def decideDefaultRoute (degree : Int) (state : SourceState) : SourceState :=
  { state with defaultRouteLog := state.defaultRouteLog ++
    [.verdict src degree (decide (state.run.graph.outDegree src ≤ 1))] }

def finish (gpickleName : Text) (state : SourceState) : SourceState :=
  { state with run := { state.run with frrpLog := state.run.frrpLog ++ [.finalGraph src gpickleName] } }

end SourceState

section Loop

variable (floats : Floats) (settings : Settings) (services : SourceServices) (limit : Nat) (src : Asn) (degree : Int)

def SourceServices.experiment : Experiment :=
  { services.toServices with floats := floats, routePrefix := settings.routePrefix }

/-- The opening announcement and the measurement of a source with probes. -/
def measureSource (probes : List Int) : Effect SourceState (Option Int) := do
  modify fun state => { state with run := .opened src }
  Effect.ofExcept (makeAnnouncement (services.experiment floats settings) 0)
  Effect.within SourceState.run (fun run state => { state with run := run })
    (measureSingleSource (services.experiment floats settings) src probes limit [] ∅)

/-- What follows the measurement, by the code that it returned. -/
def conclude (err : Option Int) : Effect SourceState Unit := do
  if err = some (-1) then
    modify fun state => { state with misnomerAtlasAses := state.misnomerAtlasAses ++ [src] }
    modify (SourceState.fail src "atlas_source_traceroute_error".toList)
  else if err = some (-2) then
    modify fun state => { state with rerunAtlasAses := state.rerunAtlasAses ++ [src] }
    modify (SourceState.fail src "atlas_source_empty_response".toList)
  else
    modify (SourceState.decideDefaultRoute src degree)
    Effect.ofExcept services.drawGraph
    Effect.ofExcept services.writeGpickle
    modify (SourceState.finish src (settings.gpickleName src))

/-- The body of the loop over the sources. -/
def runMeasurement : Effect SourceState Unit := do
  match ← Effect.ofExcept services.findProbesByAsn with
  | none | some [] => modify (SourceState.fail src "no_stable_probe".toList)
  | some probes =>
      let err ← measureSource floats settings services limit src probes
      conclude settings services src degree err

end Loop

/-- The loop over the sources up to the first exception: what the rounds leave behind,
and whether it came to an end. -/
def runMeasurements (floats : Floats) (settings : Settings) (limit : Nat) :
    (Nat → SourceServices) → List (Asn × Int) → List SourceState × Bool
  | _, [] => ([], true)
  | services, (src, degree) :: rest =>
      match runMeasurement floats settings (services 0) limit src degree (.start src) with
      | .error _ state => ([state], false)
      | .ok _ state =>
          let (states, ended) := runMeasurements floats settings limit (fun index => services (index + 1)) rest
          (state :: states, ended)

def frrpLog (states : List SourceState) : List FrrpEntry := states.flatMap fun state => state.run.frrpLog

section Text

variable (floats : Floats) (order : Finset Asn → List Asn)

/-- The lines with a path; `code` is 0 or 2. -/
def pathLine (code : Int) (src : Asn) (measurementId : Int) (poisons : Finset Asn) (path : List Asn)
    (rtts : List (Asn × ℚ)) : Text :=
  Text.ofInt code ++ "|src,".toList ++ Text.ofInt src ++ ",atlas,".toList ++ Text.ofInt measurementId ++
    ",poisons,[".toList ++ ",".toList.intercalate ((order poisons).map Text.ofInt) ++
    "],path,[".toList ++ ",".toList.intercalate (path.map Text.ofInt) ++
    "],rtts,[".toList ++ ",".toList.intercalate (getKvString floats rtts) ++ "]".toList

/-- The text that is given to `write_frrp_entry`. -/
def FrrpEntry.line : FrrpEntry → Text
  | .error src msg => "-1|src,".toList ++ Text.ofInt src ++ ",msg,".toList ++ msg
  | .finalGraph src graphPath => "1|src,".toList ++ Text.ofInt src ++ ",graph_path,".toList ++ graphPath
  | .result src atlas poisons path rtts => pathLine floats order 0 src atlas poisons path rtts
  | .lostConnectivity src atlas poisons path rtts => pathLine floats order 2 src atlas poisons path rtts
  | .noMorePoisons src => "3|src,".toList ++ Text.ofInt src ++ ",msg,no_more_poisons".toList

end Text

def frrpHeader : List Text :=
  ["# Entry formats".toList,
    "# Error:              -1|src,asn,msg,err_msg".toList,
    "# Final Graph:         1|src,asn,graph_path,measured_graph_file".toList,
    "# FRRP Result:         0|src,asn,atlas,m_id,oisons,[poison_set],path,[as-path]".toList,
    "# Lost Connectivity:   2|src,asn,atlas,m_id,poisons,[poison_set],path,[as-path]".toList,
    "# No More Poisons      3|src,asn,msg,no_more_poisons".toList]

/-- The file that `write_frrp_entry` appends its lines to. -/
def frrpLogFile (floats : Floats) (order : SetOrder Asn) (entries : List FrrpEntry) : Text :=
  (frrpHeader ++ entries.mapIdx fun index entry => entry.line floats (order.items index)).flatMap fun line => line ++ ['\n']

end ActiveBgp.Peering

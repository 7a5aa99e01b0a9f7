import ActiveBgp.Frrp.PoisonCache
import Mathlib.Data.Finset.Empty

namespace ActiveBgp.Frrp

open ActiveBgp.Python

structure AnnotatedASPath where
  identity : Nat
  ases : List Asn
  rtts : List ℚ
  length : Nat
  atlasMId : Option Int
  poisons : Option (Finset Asn)
  counted : ases.length = length ∧ rtts.length = length

namespace AnnotatedASPath

def new (identity : Nat) : AnnotatedASPath := ⟨identity, [], [], 0, none, none, rfl, rfl⟩

def addAs (path : AnnotatedASPath) (asn : Asn) (rtt : ℚ) : AnnotatedASPath :=
  { path with
    ases := path.ases ++ [asn]
    rtts := path.rtts ++ [rtt]
    length := path.length + 1
    counted := by simp [path.counted] }

/-- The lines that make a path and fill it. -/
def annotate (identity : Nat) (poisons : Finset Asn) (measurementId : Int) (path : TraceroutePath) : AnnotatedASPath :=
  { (path.asns.items.zip path.rtts).foldl (fun annotated hop => annotated.addAs hop.1 hop.2)
      { new identity with poisons := some poisons } with
    atlasMId := some measurementId }

theorem foldl_addAs (hops : List (Asn × ℚ)) (path : AnnotatedASPath) :
    let filled := hops.foldl (fun annotated hop => annotated.addAs hop.1 hop.2) path
    filled.identity = path.identity ∧ filled.poisons = path.poisons ∧ filled.ases = path.ases ++ hops.map Prod.fst := by
  induction hops generalizing path with
  | nil => simp
  | cons hop rest ih =>
      obtain ⟨identity, poisons, ases⟩ := ih (path.addAs hop.1 hop.2)
      exact ⟨identity, poisons, ases.trans (by simp [addAs])⟩

theorem annotate_spec (identity : Nat) (poisons : Finset Asn) (measurementId : Int) {path : TraceroutePath}
    (timed : path.rtts.length = path.asns.items.length) :
    (annotate identity poisons measurementId path).identity = identity ∧
      (annotate identity poisons measurementId path).poisons = some poisons ∧
      (annotate identity poisons measurementId path).ases = path.asns.items := by
  obtain ⟨same, given, ases⟩ :=
    foldl_addAs (path.asns.items.zip path.rtts) { new identity with poisons := some poisons }
  refine ⟨same, given, ases.trans ?_⟩
  simp [new, List.map_fst_zip, timed]

theorem foldl_addAs_rtts (hops : List (Asn × ℚ)) (path : AnnotatedASPath) :
    (hops.foldl (fun annotated hop => annotated.addAs hop.1 hop.2) path).rtts = path.rtts ++ hops.map Prod.snd := by
  induction hops generalizing path with
  | nil => simp
  | cons hop rest ih => exact (ih (path.addAs hop.1 hop.2)).trans (by simp [addAs])

theorem annotate_rtts (identity : Nat) (poisons : Finset Asn) (measurementId : Int) {path : TraceroutePath}
    (timed : path.rtts.length = path.asns.items.length) :
    (annotate identity poisons measurementId path).rtts = path.rtts := by
  refine (foldl_addAs_rtts _ _).trans ?_
  simp [new, List.map_snd_zip, timed]

end AnnotatedASPath

structure FRRPRun where
  srcAsn : Asn
  errors : List Text := []
  noStableProbe : Bool := false
  hasDefaultRoute : Bool := false
  graphPath : Option Text := none
  poisonCache : Option PoisonCache := none
  originalPath : Option AnnotatedASPath := none
  discoveredPaths : List AnnotatedASPath := []
  lostConnectivityPaths : List AnnotatedASPath := []
  finalGraphPath : Option Text := none
  initialLostConnectivityFailure : Bool := false

namespace FRRPRun

def recordedPaths (run : FRRPRun) : List AnnotatedASPath := run.originalPath.toList ++ run.discoveredPaths

def isUniquePath (run : FRRPRun) (path : AnnotatedASPath) : Bool :=
  run.recordedPaths.all fun other => other.identity ≠ path.identity

def addDiscoveredPath (run : FRRPRun) (path : AnnotatedASPath) : FRRPRun :=
  if run.isUniquePath path then { run with discoveredPaths := run.discoveredPaths ++ [path] } else run

def addLostConnectivityPath (run : FRRPRun) (path : AnnotatedASPath) : FRRPRun :=
  { run with lostConnectivityPaths := run.lostConnectivityPaths ++ [path] }

def addError (run : FRRPRun) (error : Text) : FRRPRun := { run with errors := run.errors ++ [error] }

/-- The recorded paths with their poisons, in the order in which they were recorded. -/
def recorded (run : FRRPRun) : List (Finset Asn × List Asn) :=
  run.recordedPaths.map fun path => (path.poisons.getD ∅, path.ases)

theorem recordedPaths_addDiscoveredPath {run : FRRPRun} {path : AnnotatedASPath}
    (new : ∀ other ∈ run.recordedPaths, other.identity < path.identity) :
    (run.addDiscoveredPath path).recordedPaths = run.recordedPaths ++ [path] := by
  have unique : run.isUniquePath path = true := by
    simpa [isUniquePath] using fun other member => (new other member).ne
  simp [addDiscoveredPath, unique, recordedPaths]

@[simp] theorem originalPath_addDiscoveredPath (run : FRRPRun) (path : AnnotatedASPath) :
    (run.addDiscoveredPath path).originalPath = run.originalPath := by
  unfold addDiscoveredPath
  split <;> rfl

@[simp] theorem lostConnectivityPaths_addDiscoveredPath (run : FRRPRun) (path : AnnotatedASPath) :
    (run.addDiscoveredPath path).lostConnectivityPaths = run.lostConnectivityPaths := by
  unfold addDiscoveredPath
  split <;> rfl

end FRRPRun

end ActiveBgp.Frrp

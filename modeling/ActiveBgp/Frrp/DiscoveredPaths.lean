import ActiveBgp.Frrp.FRRPRun
import ActiveBgp.Data.History

namespace ActiveBgp.Frrp

open ActiveBgp.Python ActiveBgp.Data

/-! # The discovered paths of a run

`AnnotatedASPath` has a method `__equal__` that compares the ASes, but Python looks
for `__eq__`.  Two objects with the same ASes are therefore both kept.
-/

/-- `__equal__`, which nothing calls. -/
def AnnotatedASPath.equal (path other : AnnotatedASPath) : Bool := path.ases = other.ases

namespace FRRPRun

/-- The calls on a run between which its original path may be set. -/
inductive Call where
  | setOriginalPath (path : Option AnnotatedASPath)
  | addDiscoveredPath (path : AnnotatedASPath)

def call (run : FRRPRun) : Call → FRRPRun
  | .setOriginalPath path => { run with originalPath := path }
  | .addDiscoveredPath path => run.addDiscoveredPath path

def after (run : FRRPRun) (calls : List Call) : FRRPRun := calls.foldl call run

/-- No two discovered paths have the same ASes. -/
def Distinct (run : FRRPRun) : Prop := (run.discoveredPaths.map AnnotatedASPath.ases).Nodup

instance (run : FRRPRun) : Decidable run.Distinct := inferInstanceAs (Decidable (List.Nodup _))

/-- If the path is added, it does not have the ASes of the original path. -/
def AddsOther (run : FRRPRun) (path : AnnotatedASPath) : Prop :=
  (run.addDiscoveredPath path).discoveredPaths = run.discoveredPaths ++ [path] →
    ∀ original ∈ run.originalPath, original.ases ≠ path.ases

/-- A path that `__equal__` finds among the recorded ones is one of these objects. -/
def Recognises (run : FRRPRun) (path : AnnotatedASPath) : Prop :=
  (∃ other ∈ run.recordedPaths, path.equal other = true) → ∃ other ∈ run.recordedPaths, other.identity = path.identity

section Step

variable {run : FRRPRun}

theorem isUniquePath_eq_false {path : AnnotatedASPath} :
    run.isUniquePath path = false ↔ ∃ other ∈ run.recordedPaths, other.identity = path.identity := by
  simp [isUniquePath]

/-- A call does harm exactly if it adds a path that `__equal__` would have found. -/
theorem distinct_addDiscoveredPath (distinct : run.Distinct) (path : AnnotatedASPath) :
    (run.addDiscoveredPath path).Distinct ∧ run.AddsOther path ↔ run.Recognises path := by
  cases unique : run.isUniquePath path with
  | false =>
      have kept : run.addDiscoveredPath path = run := by simp [addDiscoveredPath, unique]
      have idle : run.AddsOther path := by
        intro added
        rw [kept] at added
        simp at added
      rw [kept]
      exact iff_of_true ⟨distinct, idle⟩ fun _ => isUniquePath_eq_false.mp unique
  | true =>
      have unseen : ¬ ∃ other ∈ run.recordedPaths, other.identity = path.identity := by
        rw [← isUniquePath_eq_false, unique]
        simp
      have added : (run.addDiscoveredPath path).discoveredPaths = run.discoveredPaths ++ [path] := by
        simp [addDiscoveredPath, unique]
      have still : (run.addDiscoveredPath path).Distinct ↔ ∀ other ∈ run.discoveredPaths, other.ases ≠ path.ases := by
        rw [Distinct, added, List.map_append, List.nodup_append]
        have paths : (run.discoveredPaths.map AnnotatedASPath.ases).Nodup := distinct
        simp [paths]
      have other : run.AddsOther path ↔ ∀ original ∈ run.originalPath, original.ases ≠ path.ases :=
        ⟨fun foreign => foreign added, fun foreign _ => foreign⟩
      have recognised : run.Recognises path ↔ ∀ other ∈ run.recordedPaths, other.ases ≠ path.ases := by
        refine ⟨fun recognises other member same => unseen (recognises ⟨other, member, by simp [AnnotatedASPath.equal, same]⟩),
          fun different found => ?_⟩
        obtain ⟨other, member, same⟩ := found
        exact absurd (of_decide_eq_true same).symm (different other member)
      rw [still, other, recognised, recordedPaths]
      simp only [List.mem_append, Option.mem_toList, or_imp, forall_and]
      exact and_comm

end Step

section Sequence

variable {run : FRRPRun} {calls : List Call}

theorem after_snoc (run : FRRPRun) (calls : List Call) (last : Call) :
    run.after (calls ++ [last]) = (run.after calls).call last := by
  simp [after]

/-- After every call no two discovered paths have the same ASes, and each one that was
added differs from the original path of that moment. -/
def Unrepeated (run : FRRPRun) (calls : List Call) : Prop :=
  (∀ before, before <+: calls → (run.after before).Distinct) ∧
    Chronicle (fun before call => ∀ path, call = .addDiscoveredPath path → (run.after before).AddsOther path) calls

theorem unrepeated_snoc (last : Call) :
    run.Unrepeated (calls ++ [last]) ↔ run.Unrepeated calls ∧ ((run.after calls).call last).Distinct ∧
      ∀ path, last = .addDiscoveredPath path → (run.after calls).AddsOther path := by
  simp only [Unrepeated, chronicle_snoc, List.prefix_concat_iff, or_imp, forall_and, forall_eq, after_snoc]
  tauto

/-- The paths stay distinct exactly if no call brings another object with ASes that are recorded. -/
theorem unrepeated_iff (run : FRRPRun) (calls : List Call) :
    run.Unrepeated calls ↔ run.Distinct ∧
      Chronicle (fun before call => ∀ path, call = .addDiscoveredPath path → (run.after before).Recognises path) calls := by
  induction calls using List.reverseRecOn with
  | nil => simp [Unrepeated, chronicle_nil, after]
  | append_singleton calls last ih =>
      rw [unrepeated_snoc, chronicle_snoc, ih, and_assoc]
      refine and_congr_right fun start => and_congr_right fun recognised => ?_
      have distinct : (run.after calls).Distinct := (ih.mpr ⟨start, recognised⟩).1 calls (List.prefix_refl calls)
      cases last with
      | setOriginalPath path => simpa [call, Distinct] using distinct
      | addDiscoveredPath path => simpa [call] using distinct_addDiscoveredPath distinct path

end Sequence

/-- Two objects with the path 1-2 are both kept. -/
theorem equal_paths_kept : ¬ ∀ (src : Asn) (calls : List Call), Unrepeated { srcAsn := src } calls := by
  intro all
  let path (identity : Nat) : AnnotatedASPath := ((AnnotatedASPath.new identity).addAs 1 0).addAs 2 0
  have distinct := (all 1 [.addDiscoveredPath (path 0), .addDiscoveredPath (path 1)]).1 _ (List.prefix_refl _)
  exact absurd distinct (by decide)

end FRRPRun

end ActiveBgp.Frrp

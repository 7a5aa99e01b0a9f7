import ActiveBgp.Frrp.SingleSource
import ActiveBgp.Data.Refusal

namespace ActiveBgp.Frrp

open ActiveBgp.Python ActiveBgp.Data ActiveBgp.Data.Exploration

/-! # Failed submissions

A call that fails to submit a traceroute returns at once, but the call around it
does not look at what was returned.  The run is over exactly if the calls around
the failed one have no AS left to poison.
-/

variable {services : Services} {src : Asn} {state : RunState} {poisons : Finset Asn}

def SubmissionFails (services : Services) (number : Nat) : Prop :=
  submitTraceroute services number = .ok none ∨ submitTraceroute services number = .ok (some (-1))

instance (services : Services) (number : Nat) : Decidable (SubmissionFails services number) :=
  match submitted : submitTraceroute services number with
  | .ok none => .isTrue (.inl submitted)
  | .ok (some id) =>
      if same : id = -1 then .isTrue (.inr (by rw [submitted, same]))
      else .isFalse (by simp [SubmissionFails, submitted, same])
  | .error _ => .isFalse (by simp [SubmissionFails, submitted])

theorem submissionFails_iff (services : Services) (number : Nat) : SubmissionFails services number ↔
    traceroute services number = .ok .notSubmitted ∨ traceroute services number = .ok .notCovered := by
  unfold SubmissionFails traceroute
  cases submitTraceroute services number with
  | error error => simp [except_bind_error]
  | ok submitted =>
      cases submitted with
      | none => simp [except_bind_ok, pure, Except.pure]
      | some measurementId =>
          by_cases covered : measurementId = -1
          · simp [except_bind_ok, covered, pure, Except.pure]
          · simp only [except_bind_ok, Except.ok.injEq, Option.some.injEq, reduceCtorEq, covered, or_self,
              false_iff, not_or]
            cases waitOnMeasurement (services.poll number) with
            | error error => simp [except_bind_error]
            | ok found =>
                cases found with
                | none => simp [except_bind_ok, pure, Except.pure]
                | some answer => cases parsed : answer.result <;> simp [except_bind_ok, pure, Except.pure, parsed]

inductive Signal where
  | announcement
  | failure
deriving DecidableEq

def Action.signal (services : Services) : Action → Option Signal
  | .announced _ => some .announcement
  | .submitted number => if SubmissionFails services number then some .failure else none
  | _ => none

def signalOf : Moment Asn → Option Signal
  | .tried _ _ => some .announcement
  | .refused _ => some .failure
  | _ => none

/-- No announcement is made after a submission that failed. -/
def QuitsAfterFailure (services : Services) (actions : List Action) : Prop :=
  actions.Pairwise fun earlier later =>
    (∃ number, earlier = .submitted number ∧ SubmissionFails services number) → ∀ asSeq, later ≠ .announced asSeq

section Signals

def Quits (signals : List Signal) : Prop :=
  signals.Pairwise fun earlier later => earlier = .failure → later ≠ .announcement

instance (signals : List Signal) : Decidable (Quits signals) := by
  unfold Quits
  infer_instance

theorem quits_filterMap {β : Type} {history : List β} {signal : β → Option Signal} :
    Quits (history.filterMap signal) ↔
      history.Pairwise fun earlier later => signal earlier = some .failure → signal later ≠ some .announcement := by
  rw [Quits, List.pairwise_filterMap]
  refine List.Pairwise.iff fun earlier later => ?_
  exact ⟨fun quits failed announced => quits _ failed _ announced rfl rfl,
    fun quits first isFirst second isSecond failed same => quits (failed ▸ isFirst) (same ▸ isSecond)⟩

theorem quitsAfterFailure_iff {actions : List Action} :
    QuitsAfterFailure services actions ↔ Quits (actions.filterMap (Action.signal services)) := by
  rw [quits_filterMap]
  refine List.Pairwise.iff fun earlier later => ?_
  have fails : (∃ number, earlier = .submitted number ∧ SubmissionFails services number) ↔
      earlier.signal services = some .failure := by
    cases earlier <;> simp [Action.signal]
  have announces : (∀ asSeq, later ≠ .announced asSeq) ↔ later.signal services ≠ some .announcement := by
    cases later <;> simp [Action.signal]
  rw [fails, announces]

theorem endsAtRefusal_iff {trace : Trace Asn} : EndsAtRefusal trace ↔ Quits (trace.filterMap signalOf) := by
  rw [quits_filterMap]
  refine List.Pairwise.iff fun earlier later => ?_
  have refused : earlier.Refused ↔ signalOf earlier = some .failure := by
    cases earlier <;> simp [Moment.Refused, signalOf]
  have tried : later.Tried ↔ signalOf later = some .announcement := by
    cases later <;> simp [Moment.Tried, signalOf]
  rw [refused, tried]

/-- The opening announcement is not in the trace. -/
def Signalled (services : Services) (state : RunState) : Prop :=
  state.actions.filterMap (Action.signal services) = .announcement :: state.trace.filterMap signalOf

/-- The first submission is not in the trace either. -/
def Reported (services : Services) (state : RunState) : Prop :=
  Signalled services state ∨
    state.trace = [] ∧ state.actions.filterMap (Action.signal services) = [.announcement, .failure]

theorem Signalled.more (signalled : Signalled services state) {after : RunState} (actions : List Action)
    (trace : Trace Asn) (sameActions : after.actions = state.actions ++ actions)
    (sameTrace : after.trace = state.trace ++ trace)
    (same : actions.filterMap (Action.signal services) = trace.filterMap signalOf) : Signalled services after := by
  unfold Signalled at *
  rw [sameActions, sameTrace, List.filterMap_append, List.filterMap_append, signalled, same, List.cons_append]

end Signals

section Steps

theorem measurePoisons_signalled (signalled : Signalled services state) (asn : Asn) :
    Outcome (Signalled services) (measurePoisons services src poisons asn state) := by
  have fails := submissionFails_iff services state.submissions
  unfold measurePoisons
  rw [Effect.bind_eq, announce_eq]
  cases services.announce state.announcements.length with
  | error error => exact signalled.more [.announced _] [.tried poisons asn] rfl rfl rfl
  | ok _ =>
  simp only [Effect.ofExcept_ok]
  rw [Effect.bind_eq, nextTraceroute_eq]
  -- The rest of the round, by what the traceroute brings.
  have finish (more : List Action) (moments : Trace Asn) {after : RunState}
      (sameActions : after.actions = state.actions ++ (.announced (some (insert asn poisons)) ::
        .submitted state.submissions :: more))
      (sameTrace : after.trace = state.trace ++ .tried poisons asn :: moments)
      (same : (Action.submitted state.submissions :: more).filterMap (Action.signal services) =
        moments.filterMap signalOf) : Signalled services after :=
    signalled.more _ _ sameActions sameTrace (congrArg (Signal.announcement :: ·) same)
  have refusal : SubmissionFails services state.submissions → [Action.submitted state.submissions].filterMap
      (Action.signal services) = [Exploration.Moment.refused (insert asn poisons)].filterMap signalOf := by
    intro fails
    simp [Action.signal, signalOf, fails]
  have fruitless : ¬ SubmissionFails services state.submissions → [Action.submitted state.submissions].filterMap
      (Action.signal services) = [Exploration.Moment.fruitless (insert asn poisons)].filterMap signalOf := by
    intro works
    simp [List.filterMap_cons, Action.signal, signalOf, works]
  cases answered : traceroute services state.submissions with
  | error error =>
      rw [answered] at fails
      exact finish [] [] (List.append_assoc _ _ _) rfl (by simpa [Action.signal] using fails)
  | ok answer =>
  rw [answered] at fails
  cases answer with
  | notSubmitted => exact finish [] [_] (List.append_assoc _ _ _) (List.append_assoc _ _ _) (refusal (fails.mpr (.inl rfl)))
  | notCovered => exact finish [] [_] (List.append_assoc _ _ _) (List.append_assoc _ _ _) (refusal (fails.mpr (.inr rfl)))
  | notFinished =>
      exact finish [] [_] (List.append_assoc _ _ _) (List.append_assoc _ _ _) (fruitless (by simpa using fails))
  | notParsed =>
      exact finish [] [_] (List.append_assoc _ _ _) (List.append_assoc _ _ _) (fruitless (by simpa using fails))
  | result measurementId hops =>
      have works : ¬ SubmissionFails services state.submissions := by simpa using fails
      simp only
      rw [Effect.bind_eq, addPath_eq]
      cases found : getTraceroutePath (services.dig state.submissions) src hops with
      | error error => exact finish [] [] (List.append_assoc _ _ _) rfl (by simp [Action.signal, works])
      | ok path =>
          cases success : path.success with
          | false =>
              simp only [success, Bool.false_eq_true, if_false]
              refine finish [.lost (.annotate state.objects (insert asn poisons) measurementId path)]
                [.fruitless (insert asn poisons)] ?_ (List.append_assoc _ _ _) (by simp [List.filterMap_cons, Action.signal, signalOf, works])
              simp [RunState.lose]
          | true =>
              simp only [success, if_true]
              cases new : (addEdges (pairwise path.asns.items) state.graph).2 with
              | false =>
                  exact finish [] [_] (List.append_assoc _ _ _) (List.append_assoc _ _ _) (fruitless works)
              | true =>
                  refine finish [.recorded (.annotate state.objects (insert asn poisons) measurementId path),
                    .entered poisons (insert asn poisons)] [.recorded (insert asn poisons) path.asns.items] ?_
                    (List.append_assoc _ _ _) (by simp [List.filterMap_cons, Action.signal, signalOf, works])
                  simp [RunState.enter, RunState.record]

/-- A round keeps the signals, since it starts with a recorded path. -/
theorem poisonTurn_reported (services : Services) (src : Asn) :
    ((searchSetting src).keeping (Reported services)).Follows (poisonTurn services src) := by
  refine (poisonTurn_follows services src).keep fun poisons asn state coherent recorded reported => ?_
  rcases poisonTurn_cases coherent services poisons asn with ⟨_, done⟩ | ⟨_, done⟩
  · rw [done]
    exact reported
  · rw [done]
    rcases reported with signalled | ⟨empty, _⟩
    · have kept := @measurePoisons_signalled services src state poisons signalled asn
      cases called : measurePoisons services src poisons asn state <;> rw [called] at kept <;> exact .inl kept
    · exact absurd recorded (by simp [searchSetting, empty, Recorded])

theorem measureOriginal_reported (services : Services) (src : Asn) :
    Outcome (Reported services) (measureOriginal services src ∅ (.opened src)) := by
  have fails := submissionFails_iff services (RunState.opened src).submissions
  have failed : SubmissionFails services (RunState.opened src).submissions → [Action.announced none,
      .submitted (RunState.opened src).submissions].filterMap (Action.signal services) = [.announcement, .failure] := by
    intro fails
    simp [Action.signal, fails]
  -- The rest of the measurement, by what the traceroute brings.
  have finish (more : List Action) (moments : Trace Asn) {after : RunState}
      (sameActions : after.actions = .announced none :: .submitted (RunState.opened src).submissions :: more)
      (sameTrace : after.trace = moments) (works : ¬ SubmissionFails services (RunState.opened src).submissions)
      (same : more.filterMap (Action.signal services) = moments.filterMap signalOf) : Reported services after := by
    refine .inl ?_
    rw [Signalled, sameActions, sameTrace]
    simpa [List.filterMap_cons, Action.signal, works] using same
  unfold measureOriginal
  rw [Effect.bind_eq, nextTraceroute_eq]
  cases answered : traceroute services (RunState.opened src).submissions with
  | error error =>
      rw [answered] at fails
      exact finish [] [] rfl rfl (by simpa using fails) rfl
  | ok answer =>
  rw [answered] at fails
  cases answer with
  | notSubmitted => exact .inr ⟨rfl, failed (fails.mpr (.inl rfl))⟩
  | notCovered => exact .inr ⟨rfl, failed (fails.mpr (.inr rfl))⟩
  | notFinished => exact finish [] [] rfl rfl (by simpa using fails) rfl
  | notParsed => exact finish [] [] rfl rfl (by simpa using fails) rfl
  | result measurementId hops =>
      have works : ¬ SubmissionFails services (RunState.opened src).submissions := by simpa using fails
      simp only
      rw [Effect.bind_eq, addPath_eq]
      cases found : getTraceroutePath (services.dig (RunState.opened src).submissions) src hops with
      | error error => exact finish [] [] rfl rfl works rfl
      | ok path =>
          cases success : path.success with
          | false =>
              simp only [success, Bool.false_eq_true, if_false]
              exact finish [.lost (.annotate 0 ∅ measurementId path)] [] rfl rfl works rfl
          | true =>
              simp only [success, if_true]
              cases new : (addEdges (pairwise path.asns.items) (RunState.opened src).graph).2 with
              | false => exact finish [] [] rfl rfl works rfl
              | true =>
                  exact finish [.recorded (.annotate 0 ∅ measurementId path)] [.recorded ∅ path.asns.items] rfl rfl
                    works rfl

end Steps

/-- After a failed submission nothing is announced if the calls around the failed one have nothing left.  In a run
that returns, nothing is announced only then. -/
theorem quits_after_failure (services : Services) (src : Asn) (limit : Nat) :
    (LeavesNothing (searchRules src) (measured services src limit).trace →
      QuitsAfterFailure services (measured services src limit).actions) ∧
    (returned (outermost services src limit) = true →
      QuitsAfterFailure services (measured services src limit).actions →
        LeavesNothing (searchRules src) (measured services src limit).trace) := by
  have reported := measured_keeps (poisonTurn_reported services src) (measureOriginal_reported services src) limit
  rw [quitsAfterFailure_iff]
  rcases reported with signalled | ⟨empty, signals⟩
  · have same : Quits ((measured services src limit).actions.filterMap (Action.signal services)) ↔
        EndsAtRefusal (measured services src limit).trace := by
      rw [signalled, endsAtRefusal_iff]
      exact List.pairwise_cons.trans (and_iff_right fun _ _ impossible => by contradiction)
    rw [same]
    rcases (measured_cases services src limit).2 with empty | ⟨path, rooted, explores⟩
    · rw [empty]
      exact ⟨fun _ => .nil, fun _ _ before origin x after impossible => by simp at impossible⟩
    · exact explores.ends_at_refusal (fun _ valid => valid.1) rooted
  · rw [signals, empty]
    exact ⟨fun _ => by decide, fun _ _ before origin x after impossible => by simp at impossible⟩

section Example

/-- The submission with this number is refused. -/
def refusing (number : Nat) (paths : List (List Asn)) : Services :=
  { scripted paths with
    create := fun other => if other = number then .ok (.failed "Unauthorized".toList) else (scripted paths).create other }

/-- The submission for 2 and 3 fails inside the call for 2, and 3 is announced afterwards. -/
theorem announced_after_failure :
    ¬ QuitsAfterFailure (refusing 2 [[1, 2, 3], [1, 3, 4]]) (measured (refusing 2 [[1, 2, 3], [1, 3, 4]]) 1 9).actions := by
  have signals : (measured (refusing 2 [[1, 2, 3], [1, 3, 4]]) 1 9).actions.filterMap
      (Action.signal (refusing 2 [[1, 2, 3], [1, 3, 4]])) =
        [.announcement, .announcement, .announcement, .failure, .announcement] := by
    decide +kernel
  rw [quitsAfterFailure_iff, signals]
  decide

/-- The submission for 3, the last element of the original path, fails. -/
theorem quits_after_failure_example :
    LeavesNothing (searchRules 1) (measured (refusing 2 [[1, 2, 3]]) 1 9).trace ∧
      .failure ∈ (measured (refusing 2 [[1, 2, 3]]) 1 9).actions.filterMap (Action.signal (refusing 2 [[1, 2, 3]])) := by
  have signals : (measured (refusing 2 [[1, 2, 3]]) 1 9).actions.filterMap (Action.signal (refusing 2 [[1, 2, 3]])) =
      [.announcement, .announcement, .announcement, .failure] := by
    decide +kernel
  refine ⟨(quits_after_failure _ 1 9).2 (by decide +kernel) ?_, by simp [signals]⟩
  rw [quitsAfterFailure_iff, signals]
  decide

end Example

end ActiveBgp.Frrp

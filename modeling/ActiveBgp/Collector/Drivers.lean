import ActiveBgp.Collector.Messages
import ActiveBgp.Data.History

namespace ActiveBgp.Collector

open ActiveBgp.Python ActiveBgp.Data

/-! # Experiments that share the collector

Every experiment is a process of its own that may start a collector and ends one
when it exits.  The collector handles the messages of all of them in the order
in which they are sent, and its main loop catches nothing.
-/

/-- `frrp` stands for `frrp.py` and `frrp_peering.py`, `peeringFrrp` for `peering/frrp.py`. -/
inductive Driver where
  | frrp (expId routePrefix : Text)
  | peeringFrrp (expId routePrefix : Text)
  | oneOff (collectorId routePrefix : Text)
deriving DecidableEq, Repr

/-- A driver registers its exit handler before it reads its arguments. -/
inductive Phase where
  | launched
  | configured
  | started
  | exited
deriving DecidableEq, Repr

inductive Event where
  | configure (index : Nat)
  | start (index : Nat) (sentTime : Int)
  | exit (index : Nat)
  | kill (index : Nat)
deriving DecidableEq, Repr

def Driver.routePrefix : Driver → Text
  | .frrp _ routePrefix => routePrefix
  | .peeringFrrp _ routePrefix => routePrefix
  | .oneOff _ routePrefix => routePrefix

/-- `'{}_{}'.format(EXP_ID, PREFIX.split('/')[0])` -/
def prefixNoSubnetId (expId routePrefix : Text) : Text :=
  expId ++ '_' :: (routePrefix.splitOn '/').headD []

def Driver.collectorId : Driver → Text
  | .frrp expId routePrefix => prefixNoSubnetId expId routePrefix
  | .peeringFrrp expId routePrefix => expId ++ '_' :: routePrefix
  | .oneOff collectorId _ => collectorId

/-- What a driver sends when it exits. -/
def Driver.farewell : Driver → Phase → List Message
  | .frrp _ _, .launched => [] -- `PREFIX` is still `None`, so the handler raises.
  | .frrp expId routePrefix, _ => [.endCollector (prefixNoSubnetId expId routePrefix)]
  | .peeringFrrp _ _, .launched => [.endCollector "None".toList]
  | .peeringFrrp expId _, _ => [.endCollector expId]
  | .oneOff collectorId _, .started => [.endCollector collectorId]
  | .oneOff _ _, _ => [] -- This driver has no exit handler.

theorem Driver.farewell_cases (driver : Driver) (phase : Phase) :
    driver.farewell phase = [] ∨ ∃ message, driver.farewell phase = [message] := by
  cases driver <;> cases phase <;> simp [farewell]

/-- The drivers' phases and the messages that were sent. -/
structure World where
  phase : Nat → Phase
  sent : List Message

def World.new : World := ⟨fun _ => .launched, []⟩

def World.advance (world : World) (index : Nat) (phase : Phase) (messages : List Message) : World :=
  ⟨Function.update world.phase index phase, world.sent ++ messages⟩

section Step

variable (drivers : Nat → Driver) (world : World)

def sends : Event → List Message
  | .configure _ => []
  | .start index sentTime =>
      [.startCollector (Text.ofInt sentTime) (drivers index).collectorId (drivers index).routePrefix]
  | .exit index => (drivers index).farewell (world.phase index)
  | .kill _ => []

def World.step (event : Event) : Option World :=
  match event with
  | .configure index =>
      if world.phase index = .launched then some (world.advance index .configured (sends drivers world event)) else none
  | .start index _ =>
      if world.phase index = .configured then some (world.advance index .started (sends drivers world event)) else none
  | .exit index =>
      if world.phase index = .exited then none else some (world.advance index .exited (sends drivers world event))
  | .kill index => some (world.advance index .exited (sends drivers world event))

end Step

theorem sends_cases (drivers : Nat → Driver) (world : World) (event : Event) :
    sends drivers world event = [] ∨ ∃ message, sends drivers world event = [message] := by
  cases event with
  | configure index => exact .inl rfl
  | start index sentTime => exact .inr ⟨_, rfl⟩
  | kill index => exact .inl rfl
  | exit index => exact Driver.farewell_cases _ _

theorem World.step_cases {drivers : Nat → Driver} {world after : World} {event : Event}
    (done : World.step drivers world event = some after) :
    after.sent = world.sent ++ sends drivers world event ∧
    ((∃ index, event = .configure index ∧ world.phase index = .launched ∧
        after.phase = Function.update world.phase index .configured) ∨
      (∃ index sentTime, event = .start index sentTime ∧ world.phase index = .configured ∧
        after.phase = Function.update world.phase index .started) ∨
      (∃ index, event = .exit index ∧ world.phase index ≠ .exited ∧
        after.phase = Function.update world.phase index .exited) ∨
      ∃ index, event = .kill index ∧ after.phase = Function.update world.phase index .exited) := by
  unfold World.step at done
  cases event <;> simp only [Option.ite_none_right_eq_some, Option.ite_none_left_eq_some, Option.some.injEq] at done
  case configure index =>
    obtain ⟨phase, rfl⟩ := done
    exact ⟨rfl, .inl ⟨index, rfl, phase, rfl⟩⟩
  case start index sentTime =>
    obtain ⟨phase, rfl⟩ := done
    exact ⟨rfl, .inr (.inl ⟨index, sentTime, rfl, phase, rfl⟩)⟩
  case exit index =>
    obtain ⟨phase, rfl⟩ := done
    exact ⟨rfl, .inr (.inr (.inl ⟨index, rfl, phase, rfl⟩))⟩
  case kill index =>
    obtain rfl := done
    exact ⟨rfl, .inr (.inr (.inr ⟨index, rfl, rfl⟩))⟩

/-- The ids of the collectors that run after a message. -/
def Message.track (ids : List Text) : Message → List Text
  | .startCollector _ collectorId _ => if collectorId ∈ ids then ids else ids ++ [collectorId]
  | .endCollector collectorId => if collectorId = "ALL".toList then [] else ids.filter (· ≠ collectorId)
  | .other _ => ids

def runningIds (messages : List Message) : List Text := messages.foldl Message.track []

theorem runningIds_snoc (messages : List Message) (message : Message) :
    runningIds (messages ++ [message]) = message.track (runningIds messages) := by
  simp [runningIds]

/-- A collector is started under an ASCII id; one that is ended while any run is one of them. -/
def Known (ids : List Text) : Message → Prop
  | .startCollector sentTime collectorId _ => (∀ char ∈ sentTime, char.toNat < 128) ∧ ∀ char ∈ collectorId, char.toNat < 128
  | .endCollector collectorId => collectorId = "ALL".toList ∨ ids = [] ∨ collectorId ∈ ids
  | .other _ => True

def Harmless (drivers : Nat → Driver) (world : World) (event : Event) : Prop :=
  ∀ message ∈ sends drivers world event, Known (runningIds world.sent) message

section Handling

variable {setupBgpstream : Text → Except PyError Unit} (works : ∀ routePrefix, setupBgpstream routePrefix = .ok ())
  {state : BGPCollector}

include works

/-- A message is handled without an exception exactly if it is known. -/
theorem processMessage_known (sound : Sound state) (message : Message) :
    (Known state.collectors.keys message ∧ ∃ after, processMessage setupBgpstream message state = .ok () after ∧
      Sound after ∧ after.collectors.keys = message.track state.collectors.keys) ∨
    (¬ Known state.collectors.keys message ∧ ∃ error after,
      processMessage setupBgpstream message state = .error error after) := by
  cases message with
  | other action => exact .inl ⟨trivial, state, rfl, sound, rfl⟩
  | startCollector sentTime collectorId routePrefix =>
      simp only [processMessage, startCollector, Effect.bind_eq, fullCollectorId]
      cases timed : pyStr sentTime with
      | error error =>
          refine .inr ⟨fun known => ?_, error, state, rfl⟩
          rw [(pyStr_ok_iff sentTime).mpr known.1] at timed
          contradiction
      | ok time =>
          cases encoded : pyStr collectorId with
          | error error =>
              refine .inr ⟨fun known => ?_, error, state, rfl⟩
              rw [(pyStr_ok_iff collectorId).mpr known.2] at encoded
              contradiction
          | ok key =>
              obtain rfl := pyStr_eq timed
              obtain rfl := pyStr_eq encoded
              simp only [except_bind_ok, pure, Except.pure, Effect.ofExcept_ok, works]
              refine .inl ⟨⟨(pyStr_ok_iff _).mp timed, (pyStr_ok_iff _).mp encoded⟩, _, rfl, sound.launch encoded _ _, ?_⟩
              by_cases member : key ∈ state.collectors.keys <;>
                simp [BGPCollector.launch, Message.track, Dict.keys_set, member]
  | endCollector collectorId =>
      by_cases empty : state.collectors.entries = []
      · have none : state.collectors.keys = [] := by simp [Dict.keys, empty]
        refine .inl ⟨.inr (.inl none), state, ?_, sound, by simp [Message.track, none]⟩
        simp only [processMessage]
        split <;> simp [endCollector, Effect.bind_eq, empty]
      · have some : state.collectors.keys ≠ [] := by simpa [Dict.keys] using empty
        by_cases all : collectorId = "ALL".toList
        · refine .inl ⟨.inl all, state.clear, ?_, sound.clear, by simp [Message.track, all, BGPCollector.clear, Dict.keys, Dict.empty]⟩
          simp only [processMessage, all, if_true, endCollector, Effect.bind_eq, Effect.get_apply, if_neg empty]
          exact endEach_eq rfl sound.ascii
        · simp only [processMessage, if_neg all, endCollector, Effect.bind_eq, Effect.get_apply, if_neg empty]
          cases found : state.collectors.get? collectorId with
          | none =>
              have absent : collectorId ∉ state.collectors.keys := by simp [Dict.mem_keys_iff, found]
              refine .inr ⟨fun known => known.elim all fun other => other.elim some absent, ?_⟩
              cases encoded : pyStr collectorId with
              | error error => exact ⟨error, state, rfl⟩
              | ok key =>
                  obtain rfl := pyStr_eq encoded
                  exact ⟨.keyError, state, by simp [Effect.bind_eq, found, orRaise]⟩
          | some process =>
              have present : collectorId ∈ state.collectors.keys := (Dict.mem_keys_iff _ _).mpr (by simp [found])
              refine .inl ⟨.inr (.inr present), _, ?_, sound.finish found, ?_⟩
              · simp [Effect.bind_eq, sound.ascii collectorId present, found, orRaise]
              · rw [Message.track, if_neg all, BGPCollector.finish, Dict.keys_erase]

omit works in
theorem monitorCollectors_append (messages more : List Message) (state : BGPCollector) :
    monitorCollectors setupBgpstream (messages ++ more) state =
      match monitorCollectors setupBgpstream messages state with
      | .ok _ after => monitorCollectors setupBgpstream more after
      | .error error after => .error error after := by
  induction messages generalizing state with
  | nil => rfl
  | cons first rest ih =>
      simp only [List.cons_append, monitorCollectors, Effect.bind_eq]
      cases processMessage setupBgpstream first state with
      | error error after => rfl
      | ok value after => exact ih after

omit works in
theorem monitorCollectors_singleton (message : Message) (state : BGPCollector) :
    monitorCollectors setupBgpstream [message] state = processMessage setupBgpstream message state := by
  simp only [monitorCollectors, Effect.bind_eq]
  cases processMessage setupBgpstream message state <;> rfl

/-- The main loop goes on exactly if every message is known when it comes. -/
theorem monitorCollectors_known (messages : List Message) :
    (Chronicle (fun before message => Known (runningIds before) message) messages ∧ ∃ after,
      monitorCollectors setupBgpstream messages .new = .ok () after ∧ Sound after ∧
      after.collectors.keys = runningIds messages) ∨
    (¬ Chronicle (fun before message => Known (runningIds before) message) messages ∧ ∃ error after,
      monitorCollectors setupBgpstream messages .new = .error error after) := by
  induction messages using List.reverseRecOn with
  | nil => exact .inl ⟨chronicle_nil, .new, rfl, sound_new, rfl⟩
  | append_singleton messages message ih =>
      rw [chronicle_snoc, monitorCollectors_append, runningIds_snoc]
      simp only [monitorCollectors_singleton]
      rcases ih with ⟨known, state, done, sound, keys⟩ | ⟨unknown, error, state, raised⟩
      · rw [done]
        have last := processMessage_known works sound message
        rw [keys] at last
        rcases last with ⟨now, after, handled⟩ | ⟨not, raised⟩
        · exact .inl ⟨⟨known, now⟩, after, handled⟩
        · exact .inr ⟨fun both => not both.2, raised⟩
      · rw [raised]
        exact .inr ⟨fun both => unknown both.1, error, state, rfl⟩

section Runs

variable {drivers : Nat → Driver} {history : List (World × Event)} {last : World}
  (run : Run (World.step drivers) .new history last)

include run

omit works in
theorem chronicle_sent_iff : Chronicle (fun before message => Known (runningIds before) message) last.sent ↔
    ∀ moment ∈ history, Harmless drivers moment.1 moment.2 := by
  induction run with
  | nil => simp [World.new, chronicle_nil]
  | @snoc history world after earlier event done ih =>
      have sent : after.sent = world.sent ++ sends drivers world event := (World.step_cases done).1
      have now : Chronicle (fun before message => Known (runningIds before) message) after.sent ↔
          Chronicle (fun before message => Known (runningIds before) message) world.sent ∧
            Harmless drivers world event := by
        rw [sent, Harmless]
        rcases sends_cases drivers world event with none | ⟨message, one⟩
        · simp [none]
        · simp [one, chronicle_snoc]
      rw [now, ih]
      simp [or_imp, forall_and]

/-- No message of any driver raises exactly if every driver's messages are harmless when it sends them. -/
theorem messages_handled_iff :
    returned (monitorCollectors setupBgpstream last.sent .new) = true ↔
      ∀ moment ∈ history, Harmless drivers moment.1 moment.2 := by
  rw [← chronicle_sent_iff run]
  rcases monitorCollectors_known works last.sent with ⟨known, after, done, _⟩ | ⟨unknown, error, after, raised⟩
  · rw [done]
    exact iff_of_true rfl known
  · rw [raised]
    exact iff_of_false (by simp) unknown

end Runs

end Handling

section Example

def exampleDrivers : Nat → Driver
  | 0 => .frrp "a".toList "208.45.214.0/23".toList
  | _ => .frrp "b".toList "208.45.215.0/24".toList

/-- An experiment that exits before it starts its collector raises in the collector of another one. -/
theorem early_exit_raises : ∃ (history : List (World × Event)) (last : World), Run (World.step exampleDrivers) .new history last ∧
    history.map Prod.snd = [.configure 0, .start 0 1, .configure 1, .exit 1] ∧
    returned (monitorCollectors (fun _ => .ok ()) last.sent .new) = false := by
  have raises : ([Event.configure 0, .start 0 1, .configure 1, .exit 1].foldlM (World.step exampleDrivers)
      World.new).any (fun last => !returned (monitorCollectors (fun _ => .ok ()) last.sent .new)) = true := by
    decide +kernel
  obtain ⟨last, reached, fails⟩ := (Option.any_eq_true _ _).mp raises
  obtain ⟨history, run, events⟩ := Run.of_foldlM reached
  exact ⟨history, last, run, events, by simpa using fails⟩

theorem messages_handled_iff_example : ∃ (history : List (World × Event)) (last : World),
    history.map Prod.snd = [.configure 0, .start 0 1, .configure 1, .start 1 2, .exit 0, .exit 1] ∧
    (returned (monitorCollectors (fun _ => .ok ()) last.sent .new) = true ↔
      ∀ moment ∈ history, Harmless exampleDrivers moment.1 moment.2) := by
  obtain ⟨last, reached⟩ : ∃ last, [Event.configure 0, .start 0 1, .configure 1, .start 1 2, .exit 0, .exit 1].foldlM
      (World.step exampleDrivers) World.new = some last := ⟨_, rfl⟩
  obtain ⟨history, run, events⟩ := Run.of_foldlM reached
  exact ⟨history, last, events, messages_handled_iff (fun _ => rfl) run⟩

end Example

end ActiveBgp.Collector

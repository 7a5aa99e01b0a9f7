import ActiveBgp.Collector.Sessions
import Mathlib.Data.List.DropRight

namespace ActiveBgp.Collector

open ActiveBgp.Python ActiveBgp.Data

/-! # The farewell of `peering/frrp.py`

The program starts its collector under the id `EXP_ID_PREFIX` and ends the one
of the id `EXP_ID`, which is never the same.  Its process is terminated by a
message of another run, or not at all; but the id is also part of the name of a
file, and with a slash in it the process does not get to run.
-/

/-- Of the messages that name the collector, the first ends it. -/
def EndsFirst (collectorId : Text) : List Message → Prop
  | [] => False
  | .startCollector _ other _ :: rest => other ≠ collectorId ∧ EndsFirst collectorId rest
  | .endCollector other :: rest => other = collectorId ∨ other = "ALL".toList ∨ EndsFirst collectorId rest
  | .other _ :: rest => EndsFirst collectorId rest

/-- Where these are the directories, a file is opened for writing in one of them. -/
def opensIn (directories : List Text) (path : Text) : Bool :=
  (path.rdropWhile (· ≠ '/')).dropLast ∈ directories

/-- The process was terminated. -/
def Gone (process : Process) (state : BGPCollector) : Prop :=
  process ∉ state.running ∧ process.pid < state.started

/-- The process runs and no id leads to it. -/
def Adrift (process : Process) (state : BGPCollector) : Prop :=
  process ∈ state.running ∧ ∀ id, state.collectors.get? id ≠ some process

section Processes

variable {setupBgpstream : Text → Except PyError Unit} {state : BGPCollector} {process : Process}

theorem Gone.step (gone : Gone process state) (sound : Sound state) (message : Message) :
    Gone process (final (processMessage setupBgpstream message state)) := by
  obtain ⟨absent, old⟩ := gone
  rcases processMessage_cases setupBgpstream sound message with
    same | ⟨_, id, routePrefix, outputFile, _, _, _, done⟩ | ⟨id, ended, _, _, done⟩ | ⟨_, done⟩
  · rw [same]
    exact ⟨absent, old⟩
  · rw [done]
    refine ⟨fun member => ?_, Nat.lt_succ_of_lt old⟩
    rcases List.mem_append.mp member with earlier | last
    · exact absent earlier
    · rw [List.mem_singleton.mp last] at old
      exact Nat.lt_irrefl _ old
  · rw [done]
    exact ⟨fun member => absent (List.mem_of_mem_filter member), old⟩
  · rw [done]
    exact ⟨fun member => absent (List.mem_of_mem_filter member), old⟩

theorem Adrift.step (adrift : Adrift process state) (sound : Sound state) (message : Message) :
    Adrift process (final (processMessage setupBgpstream message state)) := by
  obtain ⟨running, unnamed⟩ := adrift
  rcases processMessage_cases setupBgpstream sound message with
    same | ⟨_, id, routePrefix, outputFile, _, _, _, done⟩ | ⟨id, ended, _, found, done⟩ | ⟨_, done⟩
  · rw [same]
    exact ⟨running, unnamed⟩
  · rw [done]
    refine ⟨List.mem_append_left _ running, fun other inDict => ?_⟩
    simp only [final_ok, BGPCollector.launch, Dict.get?_set] at inDict
    split at inDict
    · cases inDict
      exact Nat.lt_irrefl _ (sound.old _ running)
    · exact unnamed other inDict
  · rw [done]
    have different : process ≠ ended := fun same => unnamed id (same ▸ found)
    refine ⟨List.mem_filter.mpr ⟨running, by simpa using different⟩, fun other inDict => ?_⟩
    simp only [final_ok, BGPCollector.finish, Dict.get?_erase] at inDict
    split at inDict
    · contradiction
    · exact unnamed other inDict
  · rw [done]
    have unstored : process ∉ state.collectors.values := fun member =>
      (Dict.exists_get?_of_mem_values member).elim unnamed
    exact ⟨List.mem_filter.mpr ⟨running, by simpa using unstored⟩, fun other inDict => by
      simp [BGPCollector.clear] at inDict⟩

theorem Gone.run (gone : Gone process state) (sound : Sound state) (messages : List Message) :
    Gone process (final (monitorCollectors setupBgpstream messages state)) :=
  (@invariant_monitorCollectors _ _ (fun state => Sound state ∧ Gone process state)
    (fun _ message both => ⟨both.1.step message, both.2.step both.1 message⟩) messages ⟨sound, gone⟩).2

theorem Adrift.run (adrift : Adrift process state) (sound : Sound state) (messages : List Message) :
    Adrift process (final (monitorCollectors setupBgpstream messages state)) :=
  (@invariant_monitorCollectors _ _ (fun state => Sound state ∧ Adrift process state)
    (fun _ message both => ⟨both.1.step message, both.2.step both.1 message⟩) messages ⟨sound, adrift⟩).2

theorem launched_of_handled {sentTime collectorId routePrefix : Text} {after : BGPCollector}
    (handled : processMessage setupBgpstream (.startCollector sentTime collectorId routePrefix) state = .ok () after) :
    ∃ outputFile, fullCollectorId sentTime collectorId = .ok outputFile ∧
      after = state.launch collectorId outputFile routePrefix := by
  simp only [processMessage, startCollector, Effect.bind_eq] at handled
  cases named : fullCollectorId sentTime collectorId with
  | error error => simp [named] at handled
  | ok outputFile =>
      cases works : setupBgpstream routePrefix with
      | error error => simp [named, works] at handled
      | ok value =>
          simp only [named, works, Effect.ofExcept_ok, Effect.modify_apply, EStateM.Result.ok.injEq, true_and] at handled
          exact ⟨outputFile, rfl, handled.symm⟩

/-- A collector that is started under the id of another one takes the id from it. -/
theorem held_launch (sound : Sound state) {collectorId : Text} (found : state.collectors.get? collectorId = some process)
    (other outputFile routePrefix : Text) :
    (other ≠ collectorId ∧ (state.launch other outputFile routePrefix).collectors.get? collectorId = some process) ∨
      other = collectorId ∧ Adrift process (state.launch other outputFile routePrefix) := by
  have running := sound.stored collectorId process found
  by_cases same : other = collectorId
  · refine .inr ⟨same, List.mem_append_left _ running, fun id inDict => ?_⟩
    simp only [BGPCollector.launch, Dict.get?_set] at inDict
    split at inDict
    · cases inDict
      exact Nat.lt_irrefl _ (sound.old _ running)
    · rename_i elsewhere
      exact elsewhere (same.trans (sound.once collectorId id process found inDict))
  · exact .inl ⟨same, (Dict.get?_set_ne _ _ same).trans found⟩

/-- Only an END with the id of the collector or with `ALL` terminates it. -/
theorem held_end (setupBgpstream : Text → Except PyError Unit) (sound : Sound state) {collectorId : Text} (found : state.collectors.get? collectorId = some process)
    (other : Text) :
    ((other = collectorId ∨ other = "ALL".toList) ∧
        Gone process (final (processMessage setupBgpstream (.endCollector other) state))) ∨
      (other ≠ collectorId ∧ other ≠ "ALL".toList) ∧
        (final (processMessage setupBgpstream (.endCollector other) state)).collectors.get? collectorId = some process := by
  have old := sound.old process (sound.stored collectorId process found)
  by_cases all : other = "ALL".toList
  · refine .inl ⟨.inr all, ?_⟩
    have some : state.collectors.entries ≠ [] := fun empty => by
      simpa [empty] using Dict.mem_entries_of_get? found
    have cleared : processMessage setupBgpstream (.endCollector other) state = .ok () state.clear := by
      simp only [processMessage, all, if_true, endCollector, Effect.bind_eq, Effect.get_apply, if_neg some]
      exact endEach_eq rfl sound.ascii
    rw [cleared]
    exact ⟨fun member => by simpa [Dict.mem_values found] using (List.mem_filter.mp member).2, old⟩
  by_cases same : other = collectorId
  · refine .inl ⟨.inl same, ?_⟩
    rw [same, processMessage_end sound found (same ▸ all)]
    exact ⟨fun member => by simpa using (List.mem_filter.mp member).2, old⟩
  · refine .inr ⟨⟨same, all⟩, ?_⟩
    rcases processMessage_cases setupBgpstream sound (.endCollector other) with
      kept | ⟨_, _, _, _, impossible, _⟩ | ⟨id, ended, asked, _, done⟩ | ⟨asked, _⟩
    · rw [kept, found]
    · cases impossible
    · cases asked
      rw [done, final_ok, BGPCollector.finish, Dict.get?_erase, if_neg same, found]
    · exact absurd (Message.endCollector.inj asked) all

theorem not_mem_alive (opens : Text → Bool) (process : Process) (state : BGPCollector) :
    process ∉ state.alive opens ↔ opens process.outputFile = false ∨ process ∉ state.running := by
  simp only [BGPCollector.alive, List.mem_filter, not_and_or, Bool.not_eq_true]
  exact or_comm

/-- A collector that has an id is terminated exactly if the messages end it first. -/
theorem running_after_iff (sound : Sound state) {collectorId : Text}
    (found : state.collectors.get? collectorId = some process) {messages : List Message}
    (handled : returned (monitorCollectors setupBgpstream messages state) = true) (last : Text) :
    process ∉ (final (monitorCollectors setupBgpstream (messages ++ [.endCollector last]) state)).running ↔
      EndsFirst collectorId (messages ++ [.endCollector last]) := by
  induction messages generalizing state with
  | nil =>
      simp only [List.nil_append, monitorCollectors_singleton, EndsFirst, or_false]
      rcases held_end setupBgpstream sound found last with ⟨ends, gone⟩ | ⟨⟨differs, all⟩, kept⟩
      · exact iff_of_true gone.1 ends
      · have still := (sound.step (.endCollector last)).stored _ _ kept
        exact iff_of_false (not_not_intro still) fun ends => ends.elim differs all
  | cons message rest ih =>
      simp only [List.cons_append, monitorCollectors, Effect.bind_eq] at handled ⊢
      have next : Sound (final (processMessage setupBgpstream message state)) := sound.step message
      cases done : processMessage setupBgpstream message state with
      | error error after => simp [done] at handled
      | ok value after =>
          rw [done] at next handled
          change Sound after at next
          change returned (monitorCollectors setupBgpstream rest after) = true at handled
          cases message with
          | other action =>
              cases done
              exact ih sound found handled
          | startCollector sentTime other routePrefix =>
              obtain ⟨outputFile, _, rfl⟩ := launched_of_handled done
              rcases held_launch sound found other outputFile routePrefix with ⟨differs, kept⟩ | ⟨same, adrift⟩
              · exact (ih next kept handled).trans (and_iff_right differs).symm
              · exact iff_of_false (not_not_intro (adrift.run next _).1) fun ends => ends.1 same
          | endCollector other =>
              have cases := held_end setupBgpstream sound found other
              rw [done] at cases
              rcases cases with ⟨ends, gone⟩ | ⟨⟨differs, all⟩, kept⟩
              · exact iff_of_true (gone.run next _).1 (ends.imp_right .inl)
              · exact (ih next kept handled).trans
                  ⟨fun ends => .inr (.inr ends), fun ends => (ends.resolve_left differs).resolve_left all⟩

end Processes

section Runs

variable {drivers : Nat → Driver} {history : List (World × Event)} {last begun ended : World} {index : Nat} {sentTime : Int}
  (run : Run (World.step drivers) .new history last)

include run

theorem sent_since (started : (begun, .start index sentTime) ∈ history) :
    ∃ between, last.sent = begun.sent ++ sends drivers begun (.start index sentTime) ++ between := by
  induction run with
  | nil => contradiction
  | @snoc history world after earlier event done ih =>
      have sent := (World.step_cases done).1
      rcases List.mem_append.mp started with old | new
      · obtain ⟨between, before⟩ := ih old
        exact ⟨between ++ sends drivers world event, by rw [sent, before, List.append_assoc]⟩
      · cases List.mem_singleton.mp new
        exact ⟨[], by rw [sent, List.append_nil]⟩

/-- A run exits after its start, and its exit handler knows the id. -/
theorem start_then_exit (started : (begun, .start index sentTime) ∈ history) (exited : (ended, .exit index) ∈ history) :
    ended.phase index = .started ∧
      ∃ between, ended.sent = begun.sent ++ sends drivers begun (.start index sentTime) ++ between := by
  induction run with
  | nil => contradiction
  | @snoc history world after earlier event done ih =>
      have phases := phase_of_run earlier index
      rcases List.mem_append.mp started with old | new
      · rcases List.mem_append.mp exited with before | now
        · exact ih old before
        · cases List.mem_singleton.mp now
          refine ⟨(phases.1 ⟨begun, sentTime, old⟩).resolve_right fun phase => ?_, sent_since earlier old⟩
          simp [World.step, phase] at done
      · cases List.mem_singleton.mp new
        rcases List.mem_append.mp exited with before | now
        · have phase := phases.2.1 ⟨ended, before⟩
          simp [World.step, phase] at done
        · cases List.mem_singleton.mp now

end Runs

section Farewell

variable {setupBgpstream : Text → Except PyError Unit} {drivers : Nat → Driver} {history : List (World × Event)}
  {last begun ended : World} {index : Nat} {sentTime : Int} {expId routePrefix : Text}

/-- The messages from the START of a run to the END of it, both excluded. -/
def sentBetween (begun ended : World) : List Message := ended.sent.drop (begun.sent.length + 1)

theorem start_held (run : Run (World.step drivers) .new history last) (started : (begun, .start index sentTime) ∈ history)
    (exited : (ended, .exit index) ∈ history)
    (handled : returned (monitorCollectors setupBgpstream ended.sent .new) = true) :
    ∃ process state, Owns setupBgpstream drivers history index process ∧
      fullCollectorId (Text.ofInt sentTime) (drivers index).collectorId = .ok process.outputFile ∧ Sound state ∧
      state.collectors.get? (drivers index).collectorId = some process ∧
      returned (monitorCollectors setupBgpstream (sentBetween begun ended) state) = true ∧
      ∀ more, monitorCollectors setupBgpstream (ended.sent ++ more) .new =
        monitorCollectors setupBgpstream (sentBetween begun ended ++ more) state := by
  obtain ⟨_, between, sent⟩ := start_then_exit run started exited
  have same : sentBetween begun ended = between := by
    rw [sentBetween, sent, sends]
    simp
  have sound : Sound (collectorAt setupBgpstream begun) := sound_monitorCollectors _
  rw [sent, List.append_assoc, monitorCollectors_append] at handled
  cases before : monitorCollectors setupBgpstream begun.sent .new with
  | error error state => simp [before] at handled
  | ok value state =>
      have now : collectorAt setupBgpstream begun = state := by rw [collectorAt, before, final_ok]
      rw [now] at sound
      simp only [before, sends, monitorCollectors_append, monitorCollectors_singleton] at handled
      cases launched : processMessage setupBgpstream
          (.startCollector (Text.ofInt sentTime) (drivers index).collectorId (drivers index).routePrefix) state with
      | error error after => simp [launched] at handled
      | ok value after =>
          rw [launched] at handled
          obtain ⟨outputFile, named, rfl⟩ := launched_of_handled launched
          have owns : Owns setupBgpstream drivers history index
              ⟨state.started, outputFile, (drivers index).routePrefix⟩ := by
            refine ⟨begun, sentTime, state.launch (drivers index).collectorId outputFile (drivers index).routePrefix,
              started, ?_, fun member => ?_, ?_⟩
            · rw [sends, now, monitorCollectors_singleton, launched]
            · rw [now] at member
              exact Nat.lt_irrefl _ (sound.old _ member)
            · rw [now]
              rfl
          refine ⟨_, _, owns, named, sound.launch (fullCollectorId_ok named) outputFile _, Dict.get?_set_self _ _ _, ?_, fun more => ?_⟩
          · rw [same]
            exact handled
          · rw [sent, same, List.append_assoc, List.append_assoc, monitorCollectors_append, before]
            simp only [sends, List.cons_append, List.nil_append, monitorCollectors, Effect.bind_eq, launched]

/-- The process of a run of `peering/frrp.py` is no longer running after the END of the run exactly if it could not open
its file, or, of the messages after the START that name its collector, the first ends it. -/
theorem peering_collector_stopped_iff (run : Run (World.step drivers) .new history last)
    (program : drivers index = .peeringFrrp expId routePrefix) (started : (begun, .start index sentTime) ∈ history)
    (exited : (ended, .exit index) ∈ history)
    (handled : returned (monitorCollectors setupBgpstream ended.sent .new) = true) (opens : Text → Bool) :
    ∃ process, Owns setupBgpstream drivers history index process ∧
      fullCollectorId (Text.ofInt sentTime) (expId ++ '_' :: routePrefix) = .ok process.outputFile ∧
      (process ∉ (final (monitorCollectors setupBgpstream
          (ended.sent ++ sends drivers ended (.exit index)) .new)).alive opens ↔
        opens process.outputFile = false ∨
          EndsFirst (expId ++ '_' :: routePrefix) (sentBetween begun ended ++ [.endCollector expId])) := by
  obtain ⟨phase, _⟩ := start_then_exit run started exited
  have farewell : sends drivers ended (.exit index) = [.endCollector expId] := by
    simp [sends, program, phase, Driver.farewell]
  obtain ⟨process, state, owns, named, sound, found, between, later⟩ := start_held run started exited handled
  rw [program] at found named
  refine ⟨process, owns, named, ?_⟩
  rw [farewell, later, not_mem_alive]
  exact or_congr_right (running_after_iff sound found between expId)

theorem opensIn_append (directories : List Text) (directory : Text) {file : Text} (plain : '/' ∉ file) :
    opensIn directories (directory ++ '/' :: file) = true ↔ directory ∈ directories := by
  have parent : (directory ++ '/' :: file).rdropWhile (· ≠ '/') = directory ++ ['/'] := by
    induction file using List.reverseRecOn with
    | nil => exact List.rdropWhile_concat_neg _ _ _ (by decide)
    | append_singleton front last ih =>
        obtain ⟨early, different⟩ : '/' ∉ front ∧ '/' ≠ last := by simpa using plain
        have split : directory ++ '/' :: (front ++ [last]) = (directory ++ '/' :: front) ++ [last] := by simp
        rw [split, List.rdropWhile_concat_pos _ _ _ (by simpa using different.symm)]
        exact ih early
  rw [opensIn, parent, List.dropLast_concat, decide_eq_true_eq]

/-- The file of a collector lies in `/opt/bgp` unless its id has a slash. -/
theorem opensIn_collector {directories : List Text} (home : "/opt/bgp".toList ∈ directories)
    (only : ∀ directory ∈ directories, ¬ "/opt/bgp/bgpstream_output_".toList <+: directory)
    {startTime collectorId outputFile : Text} (timed : '/' ∉ startTime)
    (named : fullCollectorId startTime collectorId = .ok outputFile) :
    opensIn directories outputFile = true ↔ '/' ∉ collectorId := by
  have file : outputFile = "/opt/bgp/bgpstream_output_".toList ++ startTime ++ "_".toList ++ collectorId ++ ".txt".toList := by
    cases time : pyStr startTime with
    | error error => simp [fullCollectorId, time, except_bind_error] at named
    | ok key =>
        simp only [fullCollectorId, time, fullCollectorId_ok named, except_bind_ok, pyStr_eq time] at named
        exact (Except.ok.inj named).symm
  by_cases slash : '/' ∈ collectorId
  · -- The part of the id behind its last slash names the file.
    obtain ⟨behind, front, same, plain⟩ := List.eq_append_cons_of_mem (List.mem_reverse.mpr slash)
    have id : collectorId = front.reverse ++ '/' :: behind.reverse := by
      simpa using congrArg List.reverse same
    have split : outputFile = ("/opt/bgp/bgpstream_output_".toList ++ startTime ++ "_".toList ++ front.reverse) ++
        '/' :: (behind.reverse ++ ".txt".toList) := by
      simp [file, id]
    rw [split, opensIn_append _ _ (by simpa using plain)]
    refine iff_of_false (fun there => only _ there ?_) (not_not_intro slash)
    simp
  · have split : outputFile = "/opt/bgp".toList ++
        '/' :: ("bgpstream_output_".toList ++ startTime ++ "_".toList ++ collectorId ++ ".txt".toList) := by
      rw [file]
      rfl
    rw [split, opensIn_append _ _ (by simp [timed, slash])]
    exact iff_of_true home slash

end Farewell

section Example

/-- The second run has the id that the first one gives when it exits. -/
def crossedDrivers : Nat → Driver
  | 0 => .peeringFrrp "a".toList "208.45.214.0".toList
  | _ => .oneOff "a".toList "208.45.215.0/24".toList

def crossedMessages : List Message :=
  [.startCollector "1".toList "a_208.45.214.0".toList "208.45.214.0".toList,
    .startCollector "2".toList "a".toList "208.45.215.0/24".toList]

theorem crossed_run : ∃ (history : List (World × Event)) (last begun ended : World),
    Run (World.step crossedDrivers) .new history last ∧
    history.map Prod.snd = [.configure 0, .start 0 1, .configure 1, .start 1 2, .exit 0] ∧
    (begun, .start 0 1) ∈ history ∧ (ended, .exit 0) ∈ history ∧ begun.sent = [] ∧ ended.sent = crossedMessages ∧
    ended.phase 0 = .started := by
  have nothing : Run (World.step crossedDrivers) .new [] .new := .nil
  have run := ((((nothing.snoc (.configure 0) rfl).snoc (.start 0 1) rfl).snoc (.configure 1) rfl).snoc
    (.start 1 2) rfl).snoc (.exit 0) rfl
  have last {before : List (World × Event)} {moment : World × Event} : moment ∈ before ++ [moment] :=
    List.mem_append_right _ (List.mem_singleton_self _)
  exact ⟨_, _, _, _, run, rfl, List.mem_append_left _ (List.mem_append_left _ (List.mem_append_left _ last)), last, rfl,
    by decide, rfl⟩

/-- The file system of the host, as far as the collectors are concerned. -/
def collectorHost : Text → Bool := opensIn ["/opt/bgp".toList]

theorem crossed_handled : returned (monitorCollectors (fun _ => .ok ()) crossedMessages .new) = true := by
  decide +kernel

/-- The END of the first run terminates the process of the second. -/
theorem own_collector_left : ∃ (history : List (World × Event)) (last ended : World) (process : Process),
    Run (World.step crossedDrivers) .new history last ∧
    history.map Prod.snd = [.configure 0, .start 0 1, .configure 1, .start 1 2, .exit 0] ∧
    (ended, .exit 0) ∈ history ∧ Owns (fun _ => .ok ()) crossedDrivers history 0 process ∧
    returned (monitorCollectors (fun _ => .ok ()) (ended.sent ++ sends crossedDrivers ended (.exit 0)) .new) = true ∧
    process ∈ (final (monitorCollectors (fun _ => .ok ())
      (ended.sent ++ sends crossedDrivers ended (.exit 0)) .new)).alive collectorHost := by
  obtain ⟨history, last, begun, ended, run, events, started, exited, first, sent, phase⟩ := crossed_run
  have farewell : sends crossedDrivers ended (.exit 0) = [.endCollector "a".toList] := by
    simp [sends, crossedDrivers, phase, Driver.farewell]
  have handled := crossed_handled
  rw [← sent] at handled
  obtain ⟨process, state, owns, named, sound, found, between, later⟩ := start_held run started exited handled
  have opened : collectorHost process.outputFile = true := by
    have file : "/opt/bgp/bgpstream_output_1_a_208.45.214.0.txt".toList = process.outputFile := Except.ok.inj named
    rw [← file]
    decide
  refine ⟨history, last, ended, process, run, events, exited, owns, ?_, ?_⟩
  · rw [farewell, sent]
    decide +kernel
  · rw [farewell, later]
    by_contra stopped
    have ends := (running_after_iff sound found between "a".toList).mp
      (((not_mem_alive _ _ _).mp stopped).resolve_left (by simp [opened]))
    simp only [sentBetween, first, sent, crossedMessages, crossedDrivers] at ends
    revert ends
    simp [EndsFirst, Driver.collectorId]

theorem peering_collector_stopped_iff_example : ∃ (history : List (World × Event)) (begun ended : World),
    history.map Prod.snd = [.configure 0, .start 0 1, .configure 1, .start 1 2, .exit 0] ∧
    (begun, .start 0 1) ∈ history ∧ (ended, .exit 0) ∈ history ∧
    ∃ process, Owns (fun _ => .ok ()) crossedDrivers history 0 process ∧
      fullCollectorId "1".toList "a_208.45.214.0".toList = .ok process.outputFile ∧
      (process ∉ (final (monitorCollectors (fun _ => .ok ())
          (ended.sent ++ sends crossedDrivers ended (.exit 0)) .new)).alive collectorHost ↔
        collectorHost process.outputFile = false ∨
          EndsFirst "a_208.45.214.0".toList (sentBetween begun ended ++ [.endCollector "a".toList])) := by
  obtain ⟨history, last, begun, ended, run, events, started, exited, _, sent, _⟩ := crossed_run
  exact ⟨history, begun, ended, events, started, exited,
    peering_collector_stopped_iff run rfl started exited (by rw [sent]; exact crossed_handled) collectorHost⟩

end Example

end ActiveBgp.Collector

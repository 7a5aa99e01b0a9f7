import ActiveBgp.Python.Collections
import ActiveBgp.Python.Effect
import ActiveBgp.Data.Run

namespace ActiveBgp.Collector

open ActiveBgp.Python ActiveBgp.Data

/-! # The BGP update collector

`BGPCollector` starts a process for each START_COLLECTOR message and keeps it in
a dictionary under the id that the message gives.  A process runs from its start
until it is terminated, whatever the dictionary says; only one that cannot open
its output file ends by itself.
-/

inductive Message where
  | startCollector (sentTime collectorId routePrefix : Text)
  | endCollector (collectorId : Text)
  | other (action : Text)
deriving DecidableEq, Repr

structure Process where
  pid : Nat
  outputFile : Text
  routePrefix : Text
deriving DecidableEq, Repr

/-- The collectors, and the processes that were started and not terminated. -/
structure BGPCollector where
  collectors : Dict Text Process
  running : List Process
  started : Nat

def BGPCollector.new : BGPCollector := ⟨.empty, [], 0⟩

/-- A `unicode` object of Python 2 as a byte string. -/
def pyStr (text : Text) : Except PyError Text :=
  if text.all fun char => char.toNat < 128 then .ok text
  else .error (.valueError "'ascii' codec can't encode characters".toList)

/-- The texts `'/opt/bgp/bgpstream_output_{}_{}.txt'.format(start_time, collector_id)`. -/
def fullCollectorId (startTime collectorId : Text) : Except PyError Text := do
  let startTime ← pyStr startTime
  let collectorId ← pyStr collectorId
  return "/opt/bgp/bgpstream_output_".toList ++ startTime ++ "_".toList ++ collectorId ++ ".txt".toList

/-- `run_collector`: the first thing that a process does is to open its file for writing, and where `opens` says that
this fails it is not alive any more. -/
def BGPCollector.alive (opens : Text → Bool) (state : BGPCollector) : List Process :=
  state.running.filter fun process => opens process.outputFile

def BGPCollector.launch (collectorId outputFile routePrefix : Text) (state : BGPCollector) : BGPCollector :=
  let process : Process := ⟨state.started, outputFile, routePrefix⟩
  { collectors := state.collectors.set collectorId process
    running := state.running ++ [process]
    started := state.started + 1 }

/-- `terminate`, waiting until the process is gone, and `del`. -/
def BGPCollector.finish (collectorId : Text) (process : Process) (state : BGPCollector) : BGPCollector :=
  { state with
    collectors := state.collectors.erase collectorId
    running := state.running.filter (· ≠ process) }

section Messages

variable (setupBgpstream : Text → Except PyError Unit)

def startCollector (startTime collectorId routePrefix : Text) : Effect BGPCollector Unit := do
  let outputFile ← Effect.ofExcept (fullCollectorId startTime collectorId)
  Effect.ofExcept (setupBgpstream routePrefix)
  modify (BGPCollector.launch collectorId outputFile routePrefix)

/-- The loop over the items of the dictionary; `items` makes a list of them first. -/
def endEach : List (Text × Process) → Effect BGPCollector Unit
  | [] => pure ()
  | (collectorId, process) :: rest => do
      let _ ← Effect.ofExcept (pyStr collectorId)
      modify (BGPCollector.finish collectorId process)
      endEach rest

def endCollector (collectorId : Option Text) (endAll : Bool) : Effect BGPCollector Unit := do
  let state ← get
  if state.collectors.entries = [] then return ()
  if endAll then endEach state.collectors.entries
  else match collectorId with
    | some collectorId =>
        let key ← Effect.ofExcept (pyStr collectorId)
        let process ← Effect.ofExcept (orRaise .keyError (state.collectors.get? key))
        modify (BGPCollector.finish collectorId process)
    | none => return ()

def processMessage : Message → Effect BGPCollector Unit
  | .startCollector sentTime collectorId routePrefix => startCollector setupBgpstream sentTime collectorId routePrefix
  | .endCollector collectorId =>
      if collectorId = "ALL".toList then endCollector none true else endCollector (some collectorId) false
  | .other _ => return ()

/-- The main loop, on the messages of its queue. -/
def monitorCollectors : List Message → Effect BGPCollector Unit
  | [] => pure ()
  | message :: rest => do
      processMessage setupBgpstream message
      monitorCollectors rest

end Messages

theorem pyStr_eq {text key : Text} (encoded : pyStr text = .ok key) : key = text := by
  unfold pyStr at encoded
  split at encoded
  · cases encoded
    rfl
  · contradiction

theorem pyStr_ok_iff (text : Text) : pyStr text = .ok text ↔ ∀ char ∈ text, char.toNat < 128 := by
  unfold pyStr
  split
  · rename_i ascii
    simpa using ascii
  · rename_i other
    simpa using other

theorem fullCollectorId_ok {startTime collectorId outputFile : Text}
    (named : fullCollectorId startTime collectorId = .ok outputFile) : pyStr collectorId = .ok collectorId := by
  cases timed : pyStr startTime with
  | error error => simp [fullCollectorId, timed, except_bind_error] at named
  | ok time =>
      cases encoded : pyStr collectorId with
      | error error => simp [fullCollectorId, timed, encoded, except_bind_ok] at named
      | ok key => rw [pyStr_eq encoded]

/-- What holds of every collector: the stored processes run, one under each id. -/
structure Sound (state : BGPCollector) : Prop where
  ascii : ∀ id ∈ state.collectors.keys, pyStr id = .ok id
  stored : ∀ id process, state.collectors.get? id = some process → process ∈ state.running
  once : ∀ first second process, state.collectors.get? first = some process →
    state.collectors.get? second = some process → first = second
  old : ∀ process ∈ state.running, process.pid < state.started

theorem sound_new : Sound .new where
  ascii id member := by simp [BGPCollector.new, Dict.keys, Dict.empty] at member
  stored id process found := by simp [BGPCollector.new] at found
  once first second process found := by simp [BGPCollector.new] at found
  old process member := by simp [BGPCollector.new] at member

variable {state : BGPCollector}

namespace Sound

theorem launch (sound : Sound state) {collectorId : Text} (ascii : pyStr collectorId = .ok collectorId)
    (outputFile routePrefix : Text) : Sound (state.launch collectorId outputFile routePrefix) := by
  have new {id : Text} {process : Process} (found : state.collectors.get? id = some process) :
      process ≠ ⟨state.started, outputFile, routePrefix⟩ := by
    intro same
    have bound := sound.old process (sound.stored id process found)
    rw [same] at bound
    exact Nat.lt_irrefl _ bound
  constructor
  case ascii =>
    intro id member
    simp only [BGPCollector.launch, Dict.mem_keys_iff, Dict.get?_set] at member
    split at member
    · rename_i same
      rw [← same]
      exact ascii
    · exact sound.ascii id ((Dict.mem_keys_iff _ _).mpr member)
  case stored =>
    intro id process found
    simp only [BGPCollector.launch, Dict.get?_set] at found ⊢
    split at found
    · cases found
      simp
    · exact List.mem_append_left _ (sound.stored id process found)
  case once =>
    intro first second process inFirst inSecond
    simp only [BGPCollector.launch, Dict.get?_set] at inFirst inSecond
    split at inFirst
    · rename_i atFirst
      cases inFirst
      split at inSecond
      · rename_i atSecond
        exact atFirst.symm.trans atSecond
      · exact absurd rfl (new inSecond)
    · split at inSecond
      · cases inSecond
        exact absurd rfl (new inFirst)
      · exact sound.once first second process inFirst inSecond
  case old =>
    intro process member
    rcases List.mem_append.mp member with earlier | last
    · exact Nat.lt_succ_of_lt (sound.old process earlier)
    · rw [List.mem_singleton.mp last]
      exact Nat.lt_succ_self _

theorem finish (sound : Sound state) {collectorId : Text} {process : Process}
    (found : state.collectors.get? collectorId = some process) : Sound (state.finish collectorId process) := by
  constructor
  case ascii =>
    intro id member
    simp only [BGPCollector.finish, Dict.mem_keys_iff, Dict.get?_erase] at member
    split at member
    · contradiction
    · exact sound.ascii id ((Dict.mem_keys_iff _ _).mpr member)
  case stored =>
    intro id other inDict
    simp only [BGPCollector.finish, Dict.get?_erase] at inDict ⊢
    split at inDict
    · contradiction
    · rename_i different
      have another : other ≠ process := fun same => different (sound.once collectorId id process found (same ▸ inDict))
      exact List.mem_filter.mpr ⟨sound.stored id other inDict, by simpa using another⟩
  case once =>
    intro first second other inFirst inSecond
    simp only [BGPCollector.finish, Dict.get?_erase] at inFirst inSecond
    split at inFirst
    · contradiction
    · split at inSecond
      · contradiction
      · exact sound.once first second other inFirst inSecond
  case old => exact fun other member => sound.old other (List.mem_of_mem_filter member)

end Sound

/-- What is left when all stored collectors have been ended. -/
def BGPCollector.clear (state : BGPCollector) : BGPCollector :=
  { state with
    collectors := .empty
    running := state.running.filter (· ∉ state.collectors.values) }

theorem Sound.clear (sound : Sound state) : Sound state.clear where
  ascii id member := by simp [BGPCollector.clear, Dict.keys, Dict.empty] at member
  stored id process found := by simp [BGPCollector.clear] at found
  once first second process found := by simp [BGPCollector.clear] at found
  old process member := sound.old process (List.mem_of_mem_filter member)

theorem endEach_eq {items : List (Text × Process)} (entries : state.collectors.entries = items)
    (ascii : ∀ id ∈ state.collectors.keys, pyStr id = .ok id) : endEach items state = .ok () state.clear := by
  induction items generalizing state with
  | nil =>
      obtain ⟨⟨_, distinct⟩, running, started⟩ := state
      cases entries
      simp [endEach, BGPCollector.clear, Dict.values, Dict.empty]
  | cons item rest ih =>
      obtain ⟨id, process⟩ := item
      have key : pyStr id = .ok id := ascii id (by simp [Dict.keys, entries])
      have others : ∀ entry ∈ rest, entry.1 ≠ id := by
        have distinct := state.collectors.distinct
        rw [entries, List.map_cons, List.nodup_cons] at distinct
        exact fun entry member same => distinct.1 (List.mem_map.mpr ⟨entry, member, same⟩)
      have left : (state.finish id process).collectors.entries = rest := by
        simpa [BGPCollector.finish, Dict.erase, entries] using others
      have keys : ∀ other ∈ (state.finish id process).collectors.keys, pyStr other = .ok other := by
        intro other member
        rw [Dict.keys, left] at member
        exact ascii other (by simp [Dict.keys, entries, member])
      rw [endEach, Effect.bind_eq, key]
      simp only [Effect.ofExcept_ok, Effect.bind_eq, Effect.modify_apply]
      rw [ih left keys]
      simp only [BGPCollector.finish] at left
      simp only [BGPCollector.clear, Dict.values, entries, BGPCollector.finish, left, List.filter_filter,
        List.map_cons, List.mem_cons, not_or]
      congr 3
      funext other
      simp [Bool.and_comm]

theorem processMessage_cases (setupBgpstream : Text → Except PyError Unit) (sound : Sound state) (message : Message) :
    final (processMessage setupBgpstream message state) = state ∨
    (∃ sentTime collectorId routePrefix outputFile,
      message = .startCollector sentTime collectorId routePrefix ∧ pyStr collectorId = .ok collectorId ∧
      fullCollectorId sentTime collectorId = .ok outputFile ∧
      processMessage setupBgpstream message state = .ok () (state.launch collectorId outputFile routePrefix)) ∨
    (∃ collectorId process, message = .endCollector collectorId ∧
      state.collectors.get? collectorId = some process ∧
      processMessage setupBgpstream message state = .ok () (state.finish collectorId process)) ∨
    (message = .endCollector "ALL".toList ∧ processMessage setupBgpstream message state = .ok () state.clear) := by
  cases message with
  | other action => exact .inl rfl
  | startCollector sentTime collectorId routePrefix =>
      simp only [processMessage, startCollector, Effect.bind_eq]
      cases named : fullCollectorId sentTime collectorId with
      | error error => exact .inl rfl
      | ok outputFile =>
          simp only [Effect.ofExcept_ok]
          cases setupBgpstream routePrefix with
          | error error => exact .inl rfl
          | ok _ =>
              exact .inr (.inl ⟨_, _, _, outputFile, rfl, fullCollectorId_ok named, named, rfl⟩)
  | endCollector collectorId =>
      by_cases empty : state.collectors.entries = []
      · refine .inl ?_
        simp only [processMessage]
        split <;> simp [endCollector, Effect.bind_eq, empty]
      by_cases all : collectorId = "ALL".toList
      · refine .inr (.inr (.inr ⟨by rw [all], ?_⟩))
        simp only [processMessage, all, if_true, endCollector, Effect.bind_eq, Effect.get_apply, if_neg empty]
        exact endEach_eq rfl sound.ascii
      · simp only [processMessage, if_neg all, endCollector, Effect.bind_eq, Effect.get_apply, if_neg empty]
        cases encoded : pyStr collectorId with
        | error error => exact .inl rfl
        | ok key =>
            obtain rfl := pyStr_eq encoded
            cases found : state.collectors.get? key with
            | none => exact .inl (by simp [Effect.bind_eq, found, orRaise])
            | some process =>
                exact .inr (.inr (.inl ⟨key, process, rfl, found, by simp [Effect.bind_eq, found, orRaise]⟩))

end ActiveBgp.Collector

import ActiveBgp.Collector.Running
import ActiveBgp.Collector.Drivers

namespace ActiveBgp.Collector

open ActiveBgp.Python ActiveBgp.Data

/-- The collector when the messages that were sent have been handled. -/
def collectorAt (setupBgpstream : Text → Except PyError Unit) (world : World) : BGPCollector :=
  final (monitorCollectors setupBgpstream world.sent .new)

def Starts (history : List (World × Event)) (index : Nat) : Prop :=
  ∃ world sentTime, (world, .start index sentTime) ∈ history

def Ends (history : List (World × Event)) (index : Nat) : Prop := ∃ world, (world, .exit index) ∈ history

/-- The process is the one that the START of the run starts. -/
def Owns (setupBgpstream : Text → Except PyError Unit) (drivers : Nat → Driver) (history : List (World × Event))
    (index : Nat) (process : Process) : Prop :=
  ∃ world sentTime after, (world, .start index sentTime) ∈ history ∧
    monitorCollectors setupBgpstream (sends drivers world (.start index sentTime)) (collectorAt setupBgpstream world) =
      .ok () after ∧
    process ∉ (collectorAt setupBgpstream world).running ∧
    after.running = (collectorAt setupBgpstream world).running ++ [process]

/-- The messages are handled, and this process is the only one that they stop. -/
def Stops (setupBgpstream : Text → Except PyError Unit) (messages : List Message) (state : BGPCollector)
    (process : Process) : Prop :=
  ∃ after, monitorCollectors setupBgpstream messages state = .ok () after ∧ process ∈ state.running ∧
    after.running = state.running.filter (· ≠ process)

/-- The collectors are those of the runs that have started and not ended, and every END that
was sent stopped the process of its own run. -/
structure Paired (setupBgpstream : Text → Except PyError Unit) (drivers : Nat → Driver)
    (history : List (World × Event)) (world : World) : Prop where
  stored : ∀ id, id ∈ (collectorAt setupBgpstream world).collectors.keys ↔
    ∃ index, Starts history index ∧ ¬ Ends history index ∧ id = (drivers index).collectorId
  owned : ∀ index process, Starts history index → ¬ Ends history index →
    (collectorAt setupBgpstream world).collectors.get? (drivers index).collectorId = some process →
      Owns setupBgpstream drivers history index process
  stopped : ∀ earlier index, (earlier, .exit index) ∈ history → ∃ process,
    Owns setupBgpstream drivers history index process ∧
      Stops setupBgpstream (sends drivers earlier (.exit index)) (collectorAt setupBgpstream earlier) process

/-- Four decimal numbers with dots between them. -/
def DottedQuad (address : Text) : Prop :=
  ∃ first second third fourth : Nat, address = ['.'].intercalate ([first, second, third, fourth].map Text.ofNat)

def networkAddress (routePrefix : Text) : Text := (routePrefix.splitOn '/').headD []

/-- The runs that start are runs of `frrp.py` and `frrp_peering.py` with distinct ids and
network addresses, and no run exits before it started. -/
structure Separate (drivers : Nat → Driver) (history : List (World × Event)) : Prop where
  frrp : ∀ index, Starts history index → ∃ expId routePrefix, drivers index = .frrp expId routePrefix ∧
    DottedQuad (networkAddress routePrefix)
  distinct : ∀ first second expId routePrefix otherPrefix, Starts history first → Starts history second →
    drivers first = .frrp expId routePrefix → drivers second = .frrp expId otherPrefix →
    networkAddress routePrefix = networkAddress otherPrefix → first = second
  ended : ∀ world index, (world, .exit index) ∈ history → world.phase index = .started

/-- The ids of the runs that start are ASCII texts. -/
def Encodable (drivers : Nat → Driver) (history : List (World × Event)) : Prop :=
  ∀ index expId routePrefix, Starts history index → drivers index = .frrp expId routePrefix →
    ∀ char ∈ expId, char.toNat < 128

section Ids

theorem numeric_address {address : Text} (quad : DottedQuad address) : Text.Numeric address := by
  obtain ⟨first, second, third, fourth, rfl⟩ := quad
  refine Text.numeric_intercalate (by decide) fun text member => ?_
  obtain ⟨number, _, rfl⟩ := List.mem_map.mp member
  exact Text.numeric_ofInt number

theorem prefixNoSubnetId_inj {expId routePrefix other otherPrefix : Text} (quad : DottedQuad (networkAddress routePrefix))
    (otherQuad : DottedQuad (networkAddress otherPrefix))
    (same : prefixNoSubnetId expId routePrefix = prefixNoSubnetId other otherPrefix) :
    expId = other ∧ networkAddress routePrefix = networkAddress otherPrefix := by
  have free {address : Text} (numeric : Text.Numeric address) : '_' ∉ address := numeric.not_mem (by decide)
  have parts : expId ++ '_' :: networkAddress routePrefix = other ++ '_' :: networkAddress otherPrefix := same
  rcases List.append_eq_append_iff.mp parts with ⟨more, rfl, later⟩ | ⟨more, rfl, later⟩
  · cases more with
    | nil => exact ⟨by simp, (List.cons.inj later).2⟩
    | cons char more =>
        exact absurd (by rw [(List.cons.inj later).2]; simp) (free (numeric_address quad))
  · cases more with
    | nil => exact ⟨by simp, (List.cons.inj later).2.symm⟩
    | cons char more =>
        exact absurd (by rw [(List.cons.inj later).2]; simp) (free (numeric_address otherQuad))

theorem pyStr_prefixNoSubnetId {expId routePrefix : Text} (quad : DottedQuad (networkAddress routePrefix)) :
    pyStr (prefixNoSubnetId expId routePrefix) = .ok (prefixNoSubnetId expId routePrefix) ↔
      ∀ char ∈ expId, char.toNat < 128 := by
  have ascii : ∀ char ∈ '_' :: networkAddress routePrefix, char.toNat < 128 :=
    List.forall_mem_cons.mpr ⟨by decide, (numeric_address quad).ascii⟩
  have parts : prefixNoSubnetId expId routePrefix = expId ++ '_' :: networkAddress routePrefix := rfl
  rw [pyStr_ok_iff, parts, List.forall_mem_append, and_iff_left ascii]

end Ids

section Messages

variable {setupBgpstream : Text → Except PyError Unit} {state : BGPCollector}

theorem processMessage_start (works : ∀ routePrefix, setupBgpstream routePrefix = .ok ()) {collectorId : Text}
    (ascii : pyStr collectorId = .ok collectorId) (sentTime : Int) (routePrefix : Text) (state : BGPCollector) :
    ∃ outputFile, processMessage setupBgpstream (.startCollector (Text.ofInt sentTime) collectorId routePrefix) state =
      .ok () (state.launch collectorId outputFile routePrefix) := by
  have time : pyStr (Text.ofInt sentTime) = .ok (Text.ofInt sentTime) :=
    (pyStr_ok_iff _).mpr (Text.numeric_ofInt sentTime).ascii
  obtain ⟨outputFile, named⟩ : ∃ outputFile, fullCollectorId (Text.ofInt sentTime) collectorId = .ok outputFile :=
    ⟨_, by simp only [fullCollectorId, time, ascii, except_bind_ok]; rfl⟩
  refine ⟨outputFile, ?_⟩
  simp only [processMessage, startCollector, Effect.bind_eq, named, works, Effect.ofExcept_ok, Effect.modify_apply]

theorem processMessage_end (sound : Sound state) {collectorId : Text} {process : Process}
    (found : state.collectors.get? collectorId = some process) (named : collectorId ≠ "ALL".toList) :
    processMessage setupBgpstream (.endCollector collectorId) state = .ok () (state.finish collectorId process) := by
  have present : collectorId ∈ state.collectors.keys := (Dict.mem_keys_iff _ _).mpr (by simp [found])
  have some : state.collectors.entries ≠ [] := by
    intro empty
    simp [Dict.keys, empty] at present
  simp only [processMessage, if_neg named, endCollector, Effect.bind_eq, Effect.get_apply, if_neg some,
    Bool.false_eq_true, if_false, sound.ascii collectorId present, Effect.ofExcept_ok, found, orRaise, Effect.modify_apply]

theorem sound_monitorCollectors (messages : List Message) :
    Sound (final (monitorCollectors setupBgpstream messages .new)) :=
  invariant_monitorCollectors (fun _ message sound => sound.step message) messages sound_new

end Messages

section Phases

variable {drivers : Nat → Driver} {history : List (World × Event)} {world last : World} {event : Event} {index : Nat}

theorem starts_snoc : Starts (history ++ [(world, event)]) index ↔
    Starts history index ∨ ∃ sentTime, event = .start index sentTime := by
  constructor
  · intro starts
    obtain ⟨earlier, sentTime, member⟩ := starts
    rcases List.mem_append.mp member with old | new
    · exact .inl ⟨earlier, sentTime, old⟩
    · exact .inr ⟨sentTime, (Prod.ext_iff.mp (List.mem_singleton.mp new)).2.symm⟩
  · rintro (⟨earlier, sentTime, member⟩ | ⟨sentTime, rfl⟩)
    · exact ⟨earlier, sentTime, by simp [member]⟩
    · exact ⟨world, sentTime, by simp⟩

theorem ends_snoc : Ends (history ++ [(world, event)]) index ↔ Ends history index ∨ event = .exit index := by
  constructor
  · intro ends
    obtain ⟨earlier, member⟩ := ends
    rcases List.mem_append.mp member with old | new
    · exact .inl ⟨earlier, old⟩
    · exact .inr (Prod.ext_iff.mp (List.mem_singleton.mp new)).2.symm
  · rintro (⟨earlier, member⟩ | rfl)
    · exact ⟨earlier, by simp [member]⟩
    · exact ⟨world, by simp⟩

theorem phase_of_run (run : Run (World.step drivers) .new history last) (index : Nat) :
    (Starts history index → last.phase index = .started ∨ last.phase index = .exited) ∧
      (Ends history index → last.phase index = .exited) ∧
      (last.phase index = .started → Starts history index) := by
  induction run with
  | nil => simp [Starts, Ends, World.new]
  | @snoc history world after earlier event done ih =>
      obtain ⟨started, ended, known⟩ := ih
      rw [starts_snoc, ends_snoc]
      rcases (World.step_cases done).2 with ⟨other, rfl, phase, advanced⟩ | ⟨other, sentTime, rfl, phase, advanced⟩ |
        ⟨other, rfl, phase, advanced⟩ | ⟨other, rfl, advanced⟩ <;>
      · rw [advanced]
        by_cases same : index = other
        · subst same
          simp_all
        · simp_all [eq_comm]

theorem Starts.mono {before : List (World × Event)} (starts : Starts before index) (included : before ⊆ history) :
    Starts history index := by
  obtain ⟨world, sentTime, member⟩ := starts
  exact ⟨world, sentTime, included member⟩

theorem Separate.mono {before : List (World × Event)} (separate : Separate drivers history) (included : before ⊆ history) :
    Separate drivers before where
  frrp index starts := separate.frrp index (starts.mono included)
  distinct _ _ _ _ _ starts otherStarts :=
    separate.distinct _ _ _ _ _ (starts.mono included) (otherStarts.mono included)
  ended earlier index member := separate.ended earlier index (included member)

theorem Encodable.mono {before : List (World × Event)} (encodable : Encodable drivers history)
    (included : before ⊆ history) : Encodable drivers before :=
  fun index expId routePrefix starts => encodable index expId routePrefix (starts.mono included)

theorem Separate.collectorId_inj (separate : Separate drivers history) {first second : Nat} (starts : Starts history first)
    (otherStarts : Starts history second) (same : (drivers first).collectorId = (drivers second).collectorId) :
    first = second := by
  obtain ⟨expId, routePrefix, frrp, quad⟩ := separate.frrp first starts
  obtain ⟨otherId, otherPrefix, otherFrrp, otherQuad⟩ := separate.frrp second otherStarts
  rw [frrp, otherFrrp] at same
  obtain ⟨rfl, address⟩ := prefixNoSubnetId_inj quad otherQuad same
  exact separate.distinct first second expId routePrefix otherPrefix starts otherStarts frrp otherFrrp address

end Phases

section Pairing

variable {setupBgpstream : Text → Except PyError Unit} {drivers : Nat → Driver} {history : List (World × Event)}
  {world after : World} {event : Event} {state : BGPCollector}

theorem Owns.snoc {index : Nat} {process : Process} (owns : Owns setupBgpstream drivers history index process) :
    Owns setupBgpstream drivers (history ++ [(world, event)]) index process := by
  obtain ⟨earlier, sentTime, started, member, launched⟩ := owns
  exact ⟨earlier, sentTime, started, by simp [member], launched⟩

theorem monitorCollectors_sent {messages : List Message}
    (handled : returned (monitorCollectors setupBgpstream world.sent .new) = true)
    (sent : after.sent = world.sent ++ messages) :
    monitorCollectors setupBgpstream after.sent .new =
      monitorCollectors setupBgpstream messages (collectorAt setupBgpstream world) := by
  rw [sent, monitorCollectors_append, collectorAt]
  cases done : monitorCollectors setupBgpstream world.sent .new with
  | error error state => simp [done] at handled
  | ok value state => rfl

theorem Paired.quiet (paired : Paired setupBgpstream drivers history world) (sent : after.sent = world.sent)
    (silent : (∀ index sentTime, event ≠ .start index sentTime) ∧ ∀ index, event ≠ .exit index) :
    Paired setupBgpstream drivers (history ++ [(world, event)]) after := by
  have same : collectorAt setupBgpstream after = collectorAt setupBgpstream world := by rw [collectorAt, sent]; rfl
  have starts (index : Nat) : Starts (history ++ [(world, event)]) index ↔ Starts history index := by
    simp [starts_snoc, silent.1]
  have ends (index : Nat) : Ends (history ++ [(world, event)]) index ↔ Ends history index := by
    simp [ends_snoc, silent.2]
  constructor
  case stored =>
    intro id
    simp only [same, starts, ends, paired.stored]
  case owned =>
    intro index process started running found
    rw [starts] at started
    rw [ends] at running
    rw [same] at found
    exact (paired.owned index process started running found).snoc
  case stopped =>
    intro earlier index member
    rcases List.mem_append.mp member with old | new
    · obtain ⟨process, owns, stops⟩ := paired.stopped earlier index old
      exact ⟨process, owns.snoc, stops⟩
    · exact absurd (Prod.ext_iff.mp (List.mem_singleton.mp new)).2.symm (silent.2 index)

theorem Paired.start {index : Nat} {sentTime : Int} (paired : Paired setupBgpstream drivers history world)
    (separate : Separate drivers (history ++ [(world, .start index sentTime)])) (new : ¬ Starts history index)
    (fresh : ¬ Ends history index) {outputFile : Text}
    (launched : monitorCollectors setupBgpstream (sends drivers world (.start index sentTime))
      (collectorAt setupBgpstream world) = .ok () ((collectorAt setupBgpstream world).launch (drivers index).collectorId
        outputFile (drivers index).routePrefix))
    (now : collectorAt setupBgpstream after = (collectorAt setupBgpstream world).launch (drivers index).collectorId
      outputFile (drivers index).routePrefix) :
    Paired setupBgpstream drivers (history ++ [(world, .start index sentTime)]) after := by
  have sound : Sound (collectorAt setupBgpstream world) := sound_monitorCollectors _
  have starts (other : Nat) : Starts (history ++ [(world, .start index sentTime)]) other ↔
      Starts history other ∨ other = index := by
    simp [starts_snoc, eq_comm]
  have ends (other : Nat) : Ends (history ++ [(world, .start index sentTime)]) other ↔ Ends history other := by
    simp [ends_snoc]
  have self : Starts (history ++ [(world, .start index sentTime)]) index := (starts index).mpr (.inr rfl)
  constructor
  case stored =>
    intro id
    rw [now]
    simp only [BGPCollector.launch, Dict.mem_keys_iff, Dict.get?_set, starts, ends]
    constructor
    · intro found
      split at found
      · rename_i same
        exact ⟨index, .inr rfl, fresh, same.symm⟩
      · obtain ⟨other, started, running, named⟩ := (paired.stored id).mp ((Dict.mem_keys_iff _ _).mpr found)
        exact ⟨other, .inl started, running, named⟩
    · rintro ⟨other, started | rfl, running, named⟩
      · split
        · rfl
        · exact (Dict.mem_keys_iff _ _).mp ((paired.stored id).mpr ⟨other, started, running, named⟩)
      · simp [named]
  case owned =>
    intro other process started running found
    rw [now] at found
    simp only [BGPCollector.launch, Dict.get?_set] at found
    split at found
    · rename_i same
      obtain rfl := separate.collectorId_inj self started same
      cases found
      refine ⟨world, sentTime, _, by simp, launched, fun member => ?_, rfl⟩
      exact Nat.lt_irrefl _ (sound.old _ member)
    · rename_i different
      have earlier : Starts history other := ((starts other).mp started).resolve_right fun same => different (by rw [same])
      exact (paired.owned other process earlier (fun ended => running ((ends other).mpr ended)) found).snoc
  case stopped =>
    intro earlier other member
    have old : (earlier, .exit other) ∈ history := by simpa using member
    obtain ⟨process, owns, stops⟩ := paired.stopped earlier other old
    exact ⟨process, owns.snoc, stops⟩

/-- The END of a run takes its own collector out of the dictionary. -/
theorem Paired.exit {index : Nat} {process : Process} (paired : Paired setupBgpstream drivers history world)
    (separate : Separate drivers history) (started : Starts history index) (running : ¬ Ends history index)
    (found : (collectorAt setupBgpstream world).collectors.get? (drivers index).collectorId = some process)
    (finished : monitorCollectors setupBgpstream (sends drivers world (.exit index)) (collectorAt setupBgpstream world) =
      .ok () ((collectorAt setupBgpstream world).finish (drivers index).collectorId process))
    (now : collectorAt setupBgpstream after =
      (collectorAt setupBgpstream world).finish (drivers index).collectorId process) :
    Paired setupBgpstream drivers (history ++ [(world, .exit index)]) after := by
  have sound : Sound (collectorAt setupBgpstream world) := sound_monitorCollectors _
  have starts (other : Nat) : Starts (history ++ [(world, .exit index)]) other ↔ Starts history other := by
    simp [starts_snoc]
  have ends (other : Nat) : Ends (history ++ [(world, .exit index)]) other ↔ Ends history other ∨ other = index := by
    simp [ends_snoc, eq_comm]
  constructor
  case stored =>
    intro id
    simp only [now, BGPCollector.finish, Dict.keys_erase, List.mem_filter, decide_eq_true_eq, paired.stored, starts, ends]
    constructor
    · rintro ⟨⟨other, begun, active, rfl⟩, different⟩
      refine ⟨other, begun, fun ended => ended.elim active fun same => different (by rw [same]), rfl⟩
    · rintro ⟨other, begun, active, rfl⟩
      refine ⟨⟨other, begun, fun ended => active (.inl ended), rfl⟩, fun same => active (.inr ?_)⟩
      exact separate.collectorId_inj begun started same
  case owned =>
    intro other owned begun active inDict
    rw [starts] at begun
    rw [ends, not_or] at active
    simp only [now, BGPCollector.finish, Dict.get?_erase] at inDict
    split at inDict
    · contradiction
    · exact (paired.owned other owned begun active.1 inDict).snoc
  case stopped =>
    intro earlier other member
    rcases List.mem_append.mp member with old | new
    · obtain ⟨owned, owns, stops⟩ := paired.stopped earlier other old
      exact ⟨owned, owns.snoc, stops⟩
    · obtain ⟨rfl, same⟩ := Prod.ext_iff.mp (List.mem_singleton.mp new)
      cases same
      exact ⟨process, (paired.owned index process started running found).snoc, _, finished, sound.stored _ _ found, rfl⟩

end Pairing

section Runs

variable {setupBgpstream : Text → Except PyError Unit} (works : ∀ routePrefix, setupBgpstream routePrefix = .ok ())
  {drivers : Nat → Driver} {history : List (World × Event)} {last : World}
  (run : Run (World.step drivers) .new history last) (separate : Separate drivers history)

include works run separate

theorem paired_run (encodable : Encodable drivers history) :
    returned (monitorCollectors setupBgpstream last.sent .new) = true ∧ Paired setupBgpstream drivers history last := by
  induction run with
  | nil =>
      refine ⟨rfl, ⟨fun id => ?_, fun index process started => ?_, fun earlier index member => ?_⟩⟩
      · simp [collectorAt, World.new, monitorCollectors, BGPCollector.new, Dict.keys, Dict.empty, Starts]
      · simp [Starts] at started
      · simp at member
  | @snoc history world after earlier event done ih =>
      have before : Separate drivers history := separate.mono (List.subset_append_left ..)
      obtain ⟨handled, paired⟩ := ih before (encodable.mono (List.subset_append_left ..))
      obtain ⟨sent, cases⟩ := World.step_cases done
      have next := monitorCollectors_sent handled sent
      have sound : Sound (collectorAt setupBgpstream world) := sound_monitorCollectors _
      rcases cases with ⟨index, rfl, _, _⟩ | ⟨index, sentTime, rfl, phase, _⟩ | ⟨index, rfl, _, _⟩ | ⟨index, rfl, _⟩
      · refine ⟨by rw [next]; rfl, paired.quiet (by simpa [sends] using sent) (by simp)⟩
      · obtain ⟨expId, routePrefix, frrp, quad⟩ := separate.frrp index (starts_snoc.mpr (.inr ⟨sentTime, rfl⟩))
        have ascii : pyStr (drivers index).collectorId = .ok (drivers index).collectorId := by
          rw [frrp]
          exact (pyStr_prefixNoSubnetId quad).mpr
            (encodable index expId routePrefix (starts_snoc.mpr (.inr ⟨sentTime, rfl⟩)) frrp)
        obtain ⟨outputFile, launched⟩ := processMessage_start works ascii sentTime (drivers index).routePrefix
          (collectorAt setupBgpstream world)
        have single : monitorCollectors setupBgpstream (sends drivers world (.start index sentTime))
            (collectorAt setupBgpstream world) = .ok () ((collectorAt setupBgpstream world).launch
              (drivers index).collectorId outputFile (drivers index).routePrefix) :=
          (monitorCollectors_singleton _ _).trans launched
        have phases := phase_of_run earlier index
        rw [single] at next
        exact ⟨by rw [next]; rfl, paired.start separate (fun starts => by simpa [phase] using phases.1 starts)
          (fun ends => by simpa [phase] using phases.2.1 ends) single (by rw [collectorAt, next]; rfl)⟩
      · have phase := separate.ended world index (by simp)
        have phases := phase_of_run earlier index
        have started := phases.2.2 phase
        have running : ¬ Ends history index := fun ends => by simpa [phase] using phases.2.1 ends
        obtain ⟨expId, routePrefix, frrp, quad⟩ := before.frrp index started
        have stored := (paired.stored (drivers index).collectorId).mpr ⟨index, started, running, rfl⟩
        obtain ⟨process, found⟩ := Option.isSome_iff_exists.mp ((Dict.mem_keys_iff _ _).mp stored)
        have named : (drivers index).collectorId ≠ "ALL".toList := by
          intro same
          have underscore : '_' ∈ (drivers index).collectorId := by
            rw [frrp]
            simp [Driver.collectorId, prefixNoSubnetId]
          rw [same] at underscore
          revert underscore
          decide
        have farewell : sends drivers world (.exit index) = [.endCollector (drivers index).collectorId] := by
          simp [sends, frrp, phase, Driver.farewell, Driver.collectorId]
        have single : monitorCollectors setupBgpstream (sends drivers world (.exit index)) (collectorAt setupBgpstream world) =
            .ok () ((collectorAt setupBgpstream world).finish (drivers index).collectorId process) := by
          rw [farewell, monitorCollectors_singleton]
          exact processMessage_end sound found named
        rw [single] at next
        exact ⟨by rw [next]; rfl, paired.exit before started running found single (by rw [collectorAt, next]; rfl)⟩
      · refine ⟨by rw [next]; rfl, paired.quiet (by simpa [sends] using sent) (by simp)⟩

/-- The runs and their collectors are paired at every moment exactly if the ids of the runs are ASCII texts. -/
theorem sessions_paired_iff :
    (∀ before world, before <+: history → Run (World.step drivers) .new before world →
      Paired setupBgpstream drivers before world) ↔ Encodable drivers history := by
  constructor
  · intro paired index expId routePrefix starts frrp
    obtain ⟨world, sentTime, member⟩ := starts
    obtain ⟨before, rest, after, rfl, earlier, done⟩ := run.split member
    have run := earlier.snoc _ done
    have initial : before ++ [(world, .start index sentTime)] <+: before ++ (world, .start index sentTime) :: rest :=
      ⟨rest, by simp⟩
    have fresh : ¬ Ends (before ++ [(world, .start index sentTime)]) index := by
      intro ends
      have phase := (phase_of_run run index).2.1 ends
      rcases (World.step_cases done).2 with ⟨_, impossible, _⟩ | ⟨_, _, same, _, advanced⟩ | ⟨_, impossible, _⟩ |
        ⟨_, impossible, _⟩
      · cases impossible
      · cases same
        simp [advanced] at phase
      · cases impossible
      · cases impossible
    have stored := ((paired _ after initial run).stored (drivers index).collectorId).mpr
      ⟨index, ⟨world, sentTime, by simp⟩, fresh, rfl⟩
    have ascii := (sound_monitorCollectors _).ascii _ stored
    obtain ⟨_, _, same, quad⟩ := separate.frrp index ⟨world, sentTime, member⟩
    rw [frrp] at same ascii
    cases same
    exact (pyStr_prefixNoSubnetId quad).mp ascii
  · intro encodable before world initial reached
    exact (paired_run works reached (separate.mono initial.subset) (encodable.mono initial.subset)).2

end Runs

section Example

variable {drivers : Nat → Driver} {history : List (World × Event)} {last : World} {events : List Event}

theorem starts_iff (same : history.map Prod.snd = events) (index : Nat) :
    Starts history index ↔ ∃ sentTime, .start index sentTime ∈ events := by
  subst same
  simp only [Starts, List.mem_map, Prod.exists, exists_eq_right]
  exact exists_comm

theorem ends_iff (same : history.map Prod.snd = events) (index : Nat) : Ends history index ↔ .exit index ∈ events := by
  subst same
  simp [Ends]

/-- A run whose id is not an ASCII text has no collector. -/
theorem foreign_id_not_started : ∃ (history : List (World × Event)) (last : World),
    Run (World.step fun _ => .frrp "é".toList "208.45.214.0/23".toList) .new history last ∧
    Separate (fun _ => .frrp "é".toList "208.45.214.0/23".toList) history ∧
    history.map Prod.snd = [.configure 0, .start 0 1] ∧
    ¬ ∀ before world, before <+: history → Run (World.step fun _ => .frrp "é".toList "208.45.214.0/23".toList) .new before world →
      Paired (fun _ => .ok ()) (fun _ => .frrp "é".toList "208.45.214.0/23".toList) before world := by
  have missing : ([Event.configure 0, .start 0 1].foldlM
      (World.step fun _ => .frrp "é".toList "208.45.214.0/23".toList) World.new).any (fun last =>
        (collectorAt (fun _ => .ok ()) last).collectors.keys.isEmpty) = true := by decide +kernel
  obtain ⟨last, reached, empty⟩ := (Option.any_eq_true _ _).mp missing
  obtain ⟨history, run, events⟩ := Run.of_foldlM reached
  have only {index : Nat} (starts : Starts history index) : index = 0 := by
    simpa [starts_iff events] using starts
  refine ⟨history, last, run, ⟨fun index starts => ⟨_, _, rfl, 208, 45, 214, 0, by decide⟩, ?_, ?_⟩, events, fun paired => ?_⟩
  · exact fun first second _ _ _ starts otherStarts _ _ _ => (only starts).trans (only otherStarts).symm
  · intro world index member
    have ends : Ends history index := ⟨world, member⟩
    simp [ends_iff events] at ends
  · have stored := ((paired history last (List.prefix_refl _) run).stored _).mpr
      ⟨0, (starts_iff events 0).mpr ⟨1, by simp⟩, by simp [ends_iff events], rfl⟩
    rw [List.isEmpty_iff.mp empty] at stored
    contradiction

theorem separate_example (run : Run (World.step exampleDrivers) .new history last)
    (events : history.map Prod.snd = [.configure 0, .start 0 1, .configure 1, .start 1 2, .exit 0]) :
    Separate exampleDrivers history where
  frrp index starts := by
    match index with
    | 0 => exact ⟨_, _, rfl, 208, 45, 214, 0, by decide⟩
    | _ + 1 => exact ⟨_, _, rfl, 208, 45, 215, 0, by decide⟩
  distinct first second expId routePrefix otherPrefix starts otherStarts frrp otherFrrp _ := by
    simp only [starts_iff events, List.mem_cons, reduceCtorEq, Event.start.injEq, List.not_mem_nil, or_false, false_or,
      exists_or, exists_eq_right] at starts otherStarts
    rcases starts with ⟨_, rfl, _⟩ | ⟨_, rfl, _⟩ <;> rcases otherStarts with ⟨_, rfl, _⟩ | ⟨_, rfl, _⟩
    · rfl
    · cases frrp
      cases otherFrrp
    · cases frrp
      cases otherFrrp
    · rfl
  ended world index member := by
    obtain ⟨before, rest, after, rfl, earlier, done⟩ := run.split member
    obtain ⟨same, rfl, _⟩ : before.map Prod.snd = [.configure 0, .start 0 1, .configure 1, .start 1 2] ∧ index = 0 ∧
        rest = [] := by
      simpa [List.append_eq_cons_iff, List.cons_eq_append_iff] using events
    have starts : Starts before 0 := (starts_iff same 0).mpr ⟨1, by simp⟩
    rcases (phase_of_run earlier 0).1 starts with started | exited
    · exact started
    · simp only [World.step, Option.ite_none_left_eq_some] at done
      exact absurd exited done.1

theorem sessions_paired_iff_example : ∃ (history : List (World × Event)) (last : World),
    Run (World.step exampleDrivers) .new history last ∧
    history.map Prod.snd = [.configure 0, .start 0 1, .configure 1, .start 1 2, .exit 0] ∧
    ((∀ before world, before <+: history → Run (World.step exampleDrivers) .new before world →
      Paired (fun _ => .ok ()) exampleDrivers before world) ↔ Encodable exampleDrivers history) := by
  obtain ⟨last, reached⟩ : ∃ last, [Event.configure 0, .start 0 1, .configure 1, .start 1 2, .exit 0].foldlM
      (World.step exampleDrivers) World.new = some last := ⟨_, rfl⟩
  obtain ⟨history, run, events⟩ := Run.of_foldlM reached
  exact ⟨history, last, run, events, sessions_paired_iff (fun _ => rfl) run (separate_example run events)⟩

end Example

end ActiveBgp.Collector

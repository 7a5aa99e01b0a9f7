import ActiveBgp.Peering.LogLines
import ActiveBgp.Peering.Search
import ActiveBgp.Data.History

namespace ActiveBgp.Peering

open ActiveBgp.Python ActiveBgp.Data
open ActiveBgp.Frrp (Asn FRRPRun Printable Rebuilt getLast_append head_append oneLine_numbered parseFile parseFile_lines parseLine
  printable_message wholeFloat? wholeFloat?_wholeText wholeText wholeText_natCast)

variable {floats : Floats} {entries : List FrrpEntry} {entry : FrrpEntry}

def aboutSource (src : Asn) (entries : List FrrpEntry) : List FrrpEntry := entries.filter fun entry => entry.src = src

/-- What the lines of one source say. -/
def sourcePaths (lines : List FrrpEntry) : LoggedPaths :=
  ⟨(lines.filterMap FrrpEntry.original).getLast?, lines.filterMap FrrpEntry.discovered,
    lines.tail.filterMap FrrpEntry.lost⟩

theorem sourcePaths_snoc (lines : List FrrpEntry) (entry : FrrpEntry) :
    sourcePaths (lines ++ [entry]) = (sourcePaths lines).add (decide (lines ≠ [])) entry := by
  simp only [sourcePaths, LoggedPaths.add, LoggedPaths.mk.injEq, List.filterMap_append]
  refine ⟨?_, ?_, ?_⟩
  · cases original : entry.original <;> simp [original]
  · cases discovered : entry.discovered <;> simp [discovered]
  · cases lines with
    | nil => rfl
    | cons first rest => cases lost : entry.lost <;> simp [lost]

section Parsing

/-- The lines of the log, as they stand in its file. -/
def textLines (floats : Floats) (order : SetOrder Asn) (entries : List FrrpEntry) : List Text :=
  entries.mapIdx fun index entry => entry.line floats (order.items index) ++ ['\n']

theorem textLines_snoc (floats : Floats) (order : SetOrder Asn) (entries : List FrrpEntry) (entry : FrrpEntry) :
    textLines floats order (entries ++ [entry]) =
      textLines floats order entries ++ [entry.line floats (order.items entries.length) ++ ['\n']] :=
  List.mapIdx_concat

theorem aboutSource_snoc (src : Asn) (entries : List FrrpEntry) (entry : FrrpEntry) :
    aboutSource src (entries ++ [entry]) =
      if entry.src = src then aboutSource src entries ++ [entry] else aboutSource src entries := by
  unfold aboutSource
  rw [List.filter_append]
  split
  · rename_i same
    simp [same]
  · rename_i different
    simp [different]

/-- The parser has a run for every source of the lines that it has read. -/
def Knows (rebuilt : Rebuilt) (entries : List FrrpEntry) : Prop :=
  ∀ src, (rebuilt.runs.get? src).isSome = decide (aboutSource src entries ≠ [])

theorem Knows.snoc {rebuilt : Rebuilt} (knows : Knows rebuilt entries) (entry : FrrpEntry) (lines : Nat) (run : FRRPRun) :
    Knows ⟨lines, rebuilt.runs.set entry.src run⟩ (entries ++ [entry]) := by
  intro src
  rw [Dict.get?_set, aboutSource_snoc]
  split
  · simp
  · exact knows src

/-- The parser knows what the lines say that it has read. -/
structure Represents (rebuilt : Rebuilt) (entries : List FrrpEntry) : Prop where
  known : ∀ src, (rebuilt.runs.get? src).isSome = decide (aboutSource src entries ≠ [])
  paths : ∀ src, loggedPaths (rebuilt.run src) = sourcePaths (aboutSource src entries)
  fresh : ∀ src, Fresh rebuilt.lines (rebuilt.run src)

theorem represents_nil : Represents ⟨0, .empty⟩ [] := ⟨fun _ => rfl, fun _ => rfl, fun src path member => by
  simp [Rebuilt.run, FRRPRun.recordedPaths] at member⟩

theorem Represents.step {rebuilt : Rebuilt} (represents : Represents rebuilt entries) {after : FRRPRun}
    (paths : loggedPaths after = (loggedPaths (rebuilt.run entry.src)).add (rebuilt.runs.get? entry.src).isSome entry)
    (fresh : Fresh (rebuilt.lines + 1) after) :
    Represents ⟨rebuilt.lines + 1, rebuilt.runs.set entry.src after⟩ (entries ++ [entry]) := by
  have run (src : Asn) : Rebuilt.run ⟨rebuilt.lines + 1, rebuilt.runs.set entry.src after⟩ src =
      if entry.src = src then after else rebuilt.run src := by
    simp only [Rebuilt.run, Dict.get?_set]
    split <;> rfl
  constructor
  case known => exact Knows.snoc represents.known entry (rebuilt.lines + 1) after
  case paths =>
    intro src
    rw [run, aboutSource_snoc]
    split
    · rename_i same
      subst same
      rw [paths, represents.paths, represents.known, sourcePaths_snoc]
    · exact represents.paths src
  case fresh =>
    intro src
    rw [run]
    split
    · exact fresh
    · exact fun path member => Nat.lt_succ_of_lt (represents.fresh src path member)

/-- What is lost after the first line of a source has resolved ASes. -/
def Resolved (before : List FrrpEntry) (entry : FrrpEntry) : Prop :=
  aboutSource entry.src before ≠ [] → ∀ lost ∈ entry.lost, lost.ases ≠ []

theorem parse_entries (order : SetOrder Asn) (clean : ∀ entry ∈ entries, entry.Clean floats)
    (resolved : Chronicle Resolved entries) :
    ∃ rebuilt, (textLines floats order entries).foldlM (parseLine floats.float?) ⟨0, .empty⟩ = .ok rebuilt ∧
      Represents rebuilt entries := by
  induction entries using List.reverseRecOn with
  | nil => exact ⟨_, rfl, represents_nil⟩
  | append_singleton earlier entry ih =>
      obtain ⟨before, now⟩ := (chronicle_snoc entry).mp resolved
      obtain ⟨rebuilt, parsed, represents⟩ := ih (fun other member => clean other (by simp [member])) before
      have needed (preexisting : (rebuilt.runs.get? entry.src).isSome = true) : ∀ lost ∈ entry.lost, lost.ases ≠ [] := by
        rw [represents.known, decide_eq_true_iff] at preexisting
        exact now preexisting
      obtain ⟨after, done, paths, fresh⟩ := parseLine_entry (clean entry (by simp)) (order.complete earlier.length)
        (represents.fresh entry.src) needed
      refine ⟨_, ?_, represents.step paths fresh⟩
      rw [textLines_snoc, List.foldlM_append, parsed, except_bind_ok, List.foldlM_cons, done]
      rfl

theorem comments_frrpHeader : ∀ line ∈ frrpHeader, Frrp.Comment line := by
  simp only [frrpHeader, List.forall_mem_cons]
  refine ⟨Frrp.comment_ofList ?_, Frrp.comment_ofList ?_, Frrp.comment_ofList ?_, Frrp.comment_ofList ?_,
    Frrp.comment_ofList ?_, Frrp.comment_ofList ?_, nofun⟩ <;> decide +kernel

theorem parseFile_frrpLogFile_eq (order : SetOrder Asn) (legible : ∀ entry ∈ entries, entry.Legible floats) :
    parseFile floats.float? (frrpLogFile floats order entries) =
      ((textLines floats order entries).foldlM (parseLine floats.float?) ⟨0, .empty⟩).map Rebuilt.runs :=
  parseFile_lines comments_frrpHeader fun _ entry member => oneLine_line (legible entry member)

theorem parseFile_frrpLogFile (order : SetOrder Asn) (clean : ∀ entry ∈ entries, entry.Clean floats)
    (resolved : Chronicle Resolved entries) :
    ∃ rebuilt : Rebuilt, parseFile floats.float? (frrpLogFile floats order entries) = .ok rebuilt.runs ∧
      Represents rebuilt entries := by
  obtain ⟨rebuilt, parsed, represents⟩ := parse_entries order clean resolved
  refine ⟨rebuilt, ?_, represents⟩
  rw [parseFile_frrpLogFile_eq order fun entry member => (clean entry member).legible, parsed]
  rfl

end Parsing

section Writing

variable {settings : Settings} {experiment : Experiment} {src : Asn} {log : List FrrpEntry}

/-- What the program writes about a source. -/
def FrrpEntry.Written (settings : Settings) (experiment : Experiment) (src : Asn) : FrrpEntry → Prop
  | .error asn msg => asn = src ∧ msg ∈ ["no_stable_probe".toList, "atlas_source_traceroute_error".toList,
      "atlas_source_empty_response".toList]
  | .finalGraph asn graphPath => asn = src ∧ graphPath = settings.gpickleName src
  | entry => entry.Proper experiment src

structure WrittenLog (settings : Settings) (experiment : Experiment) (src : Asn) (log : List FrrpEntry) : Prop where
  entries : ∀ entry ∈ log, entry.Written settings experiment src
  distinct : ((log.filterMap FrrpEntry.recording).map Prod.fst).Nodup
  nonempty : ∀ recording ∈ log.filterMap FrrpEntry.recording, recording.2 ≠ []

theorem FrrpEntry.Proper.written (proper : entry.Proper experiment src) : entry.Written settings experiment src := by
  cases entry with
  | error asn msg => exact proper.elim
  | finalGraph asn graphPath => exact proper.elim
  | result asn atlas poisons path rtts => exact proper
  | lostConnectivity asn atlas poisons path rtts => exact proper
  | noMorePoisons asn => exact proper

theorem FrrpEntry.Written.src_eq (written : entry.Written settings experiment src) : entry.src = src := by
  cases entry with
  | error asn msg => exact written.1
  | finalGraph asn graphPath => exact written.1
  | result asn atlas poisons path rtts => exact written.1
  | lostConnectivity asn atlas poisons path rtts => exact written.1
  | noMorePoisons asn => exact written

theorem writtenLog_nil : WrittenLog settings experiment src [] := ⟨by simp, List.nodup_nil, by simp⟩

theorem WrittenLog.snoc (written : WrittenLog settings experiment src log) (now : entry.Written settings experiment src)
    (recording : entry.recording = none) : WrittenLog settings experiment src (log ++ [entry]) where
  entries := List.forall_mem_append.mpr ⟨written.entries, by simpa using now⟩
  distinct := by simpa [recording] using written.distinct
  nonempty := by simpa [recording] using written.nonempty

theorem measured_written (settings : Settings) (experiment : Experiment) (src : Asn) (probes : List Int) (limit : Nat) :
    WrittenLog settings experiment src (measured experiment src probes limit).frrpLog := by
  have coherent := measured_coherent experiment src probes limit
  have sound := (measured_sound experiment src probes limit).1
  constructor
  case entries => exact fun entry member => (coherent.proper entry member).written
  case distinct =>
    rw [coherent.logged]
    exact sound.distinct
  case nonempty =>
    rw [coherent.logged]
    exact fun recording member => (sound.valid recording member).ne_nil

/-- The round of the loop for a source writes about it, and writes something if it comes to an end. -/
def WritesLog (settings : Settings) (experiment : Experiment) (src : Asn) : EStateM.Result PyError SourceState Unit → Prop
  | .ok _ state => WrittenLog settings experiment src state.run.frrpLog ∧ state.run.frrpLog ≠ []
  | .error _ state => WrittenLog settings experiment src state.run.frrpLog

theorem fail_writes {state : SourceState} (written : WrittenLog settings experiment src state.run.frrpLog) {msg : Text}
    (known : msg ∈ ["no_stable_probe".toList, "atlas_source_traceroute_error".toList,
      "atlas_source_empty_response".toList]) :
    WritesLog settings experiment src (.ok () (state.fail src msg)) :=
  ⟨written.snoc ⟨rfl, known⟩ rfl, by simp [SourceState.fail]⟩

theorem conclude_writes (services : SourceServices) (degree : Int) (err : Option Int) {state : SourceState}
    (written : WrittenLog settings experiment src state.run.frrpLog) :
    WritesLog settings experiment src (conclude settings services src degree err state) := by
  unfold conclude
  split
  · rw [Effect.bind_eq]
    let next : SourceState := { state with misnomerAtlasAses := state.misnomerAtlasAses ++ [src] }
    exact fail_writes (show WrittenLog settings experiment src next.run.frrpLog from written) (by simp)
  split
  · rw [Effect.bind_eq]
    let next : SourceState := { state with rerunAtlasAses := state.rerunAtlasAses ++ [src] }
    exact fail_writes (show WrittenLog settings experiment src next.run.frrpLog from written) (by simp)
  rw [Effect.bind_eq]
  simp only [Effect.modify_apply]
  rw [Effect.bind_eq]
  cases services.drawGraph with
  | error error => exact written
  | ok _ =>
  simp only [Effect.ofExcept_ok]
  rw [Effect.bind_eq]
  cases services.writeGpickle with
  | error error => exact written
  | ok _ => exact ⟨written.snoc ⟨rfl, rfl⟩ rfl, by simp [SourceState.finish]⟩

theorem runMeasurement_writes (floats : Floats) (settings : Settings) (services : SourceServices) (limit : Nat)
    (src : Asn) (degree : Int) : WritesLog settings (services.experiment floats settings) src
      (runMeasurement floats settings services limit src degree (.start src)) := by
  unfold runMeasurement
  rw [Effect.bind_eq]
  cases services.findProbesByAsn with
  | error error => exact writtenLog_nil
  | ok probes =>
  simp only [Effect.ofExcept_ok]
  cases probes with
  | none => exact fail_writes writtenLog_nil (by simp)
  | some probes =>
  cases probes with
  | nil => exact fail_writes writtenLog_nil (by simp)
  | cons probe probes =>
      simp only
      rw [Effect.bind_eq, measureSource, Effect.bind_eq]
      simp only [Effect.modify_apply]
      rw [Effect.bind_eq]
      cases makeAnnouncement (services.experiment floats settings) 0 with
      | error error => exact writtenLog_nil
      | ok _ =>
      have measured := measured_written settings (services.experiment floats settings) src (probe :: probes) limit
      unfold Peering.measured outermost at measured
      simp only [Effect.ofExcept_ok, Effect.within]
      cases done : measureSingleSource (services.experiment floats settings) src (probe :: probes) limit [] ∅ (.opened src) with
      | error error run =>
          rw [done] at measured
          exact measured
      | ok err run =>
          rw [done] at measured
          exact conclude_writes services degree err measured

theorem aboutSource_append (src : Asn) (log more : List FrrpEntry) :
    aboutSource src (log ++ more) = aboutSource src log ++ aboutSource src more := List.filter_append ..

theorem WrittenLog.about (written : WrittenLog settings experiment src log) (other : Asn) :
    aboutSource other log = if src = other then log else [] := by
  unfold aboutSource
  split
  · rename_i same
    exact List.filter_eq_self.mpr fun entry member => by simp [(written.entries entry member).src_eq, same]
  · rename_i different
    exact List.filter_eq_nil_iff.mpr fun entry member => by simp [(written.entries entry member).src_eq, different]

variable {sources : List (Asn × Int)}

/-- The sources are distinct, so the lines about a source are those of one round of the loop. -/
theorem runMeasurements_writes (floats : Floats) (settings : Settings) (limit : Nat) (services : Nat → SourceServices)
    (distinct : (sources.map Prod.fst).Nodup) (src : Asn) :
    (src ∉ sources.map Prod.fst → aboutSource src (frrpLog (runMeasurements floats settings limit services sources).1) = []) ∧
    (∃ index, WrittenLog settings ((services index).experiment floats settings) src
      (aboutSource src (frrpLog (runMeasurements floats settings limit services sources).1))) ∧
    ((runMeasurements floats settings limit services sources).2 = true → src ∈ sources.map Prod.fst →
      aboutSource src (frrpLog (runMeasurements floats settings limit services sources).1) ≠ []) := by
  induction sources generalizing services with
  | nil => exact ⟨fun _ => rfl, ⟨0, writtenLog_nil⟩, fun _ impossible => by simp at impossible⟩
  | cons source rest ih =>
      obtain ⟨first, degree⟩ := source
      obtain ⟨outside, restDistinct⟩ := List.nodup_cons.mp distinct
      have writes := runMeasurement_writes floats settings (services 0) limit first degree
      rw [runMeasurements]
      cases done : runMeasurement floats settings (services 0) limit first degree (.start first) with
      | error error state =>
          rw [done] at writes
          have written : WrittenLog settings ((services 0).experiment floats settings) first state.run.frrpLog := writes
          have about := written.about src
          have single : frrpLog [state] = state.run.frrpLog := by simp [frrpLog]
          simp only [single, about]
          by_cases here : first = src
          · subst here
            exact ⟨fun other => absurd (by simp) other, ⟨0, by simpa using written⟩, fun impossible => by contradiction⟩
          · rw [if_neg here]
            exact ⟨fun _ => rfl, ⟨0, writtenLog_nil⟩, fun impossible => by contradiction⟩
      | ok _ state =>
          rw [done] at writes
          obtain ⟨written, nonempty⟩ := writes
          have about := written.about src
          have more : frrpLog (state :: (runMeasurements floats settings limit (fun index => services (index + 1)) rest).1) =
              state.run.frrpLog ++ frrpLog (runMeasurements floats settings limit (fun index => services (index + 1)) rest).1 :=
            List.flatMap_cons ..
          simp only [more, aboutSource_append, about]
          obtain ⟨none, ⟨index, later⟩, ended⟩ := ih (fun index => services (index + 1)) restDistinct
          by_cases here : first = src
          · subst here
            rw [if_pos rfl, none outside, List.append_nil]
            exact ⟨fun other => absurd (by simp) other, ⟨0, written⟩, fun _ _ => nonempty⟩
          · rw [if_neg here, List.nil_append]
            refine ⟨fun other => none fun member => other (by simp [member]), ⟨index + 1, later⟩, fun all member => ?_⟩
            exact ended all ((List.mem_cons.mp member).resolve_left fun same => here same.symm)

/-- The numbers of the sources, and the origins of addresses, are those of ASes. -/
structure Numbered (settings : Settings) (services : Nat → SourceServices) (sources : List (Asn × Int)) : Prop where
  sources : ∀ source ∈ sources, 0 ≤ source.1
  origins : ∀ index number position ip asn,
    getAsnFromIp settings.routePrefix ((services index).dig number position) ip = .ok (some asn) → 0 ≤ asn

def FrrpEntry.rtts : FrrpEntry → List ℚ
  | .result _ _ _ _ rtts => rtts.map Prod.snd
  | .lostConnectivity _ _ _ _ rtts => rtts.map Prod.snd
  | _ => []

def Settings.OneLine (settings : Settings) : Prop := settings.expStart.OneLine ∧ settings.expId.OneLine

instance (settings : Settings) : Decidable settings.OneLine := by unfold Settings.OneLine; infer_instance

theorem printable_gpickleName (oneLine : settings.OneLine) (src : Asn) : Printable (settings.gpickleName src) := by
  have front : Text.OneLine "graph_results/atlas-as-".toList := by decide
  have dash : Text.OneLine "-".toList := by decide
  have back : Text.OneLine "-measured-graph.gpickle".toList := by decide
  have starts : ∃ first ∈ "graph_results/atlas-as-".toList.head?, first ≠ ',' ∧ first ≠ '[' := ⟨'g', by decide, by decide⟩
  have ends : ∃ last ∈ "-measured-graph.gpickle".toList.getLast?, Text.isBlank last = false := ⟨'e', by decide, by decide⟩
  constructor <;> unfold Settings.gpickleName
  · exact (((((oneLine_numbered front src).append dash).append oneLine.1).append dash).append oneLine.2).append back
  · exact head_append (head_append (head_append (head_append (head_append (head_append starts)))))
  · exact getLast_append ends

theorem TracedHops.isFloat {path : List Asn} {rtts : List (Asn × ℚ)} (traced : TracedHops experiment src path rtts) :
    ∀ hop ∈ rtts, experiment.floats.isFloat hop.2 := by
  intro hop member
  obtain ⟨_, _, zero | ⟨rtts, average⟩⟩ := traced.2 hop member
  · rw [zero]
    exact experiment.floats.isFloat_zero
  · rw [average]
    exact experiment.floats.isFloat_average rtts

theorem TracedHops.clean {path : List Asn} {rtts : List (Asn × ℚ)} (traced : TracedHops experiment src path rtts)
    (source : 0 ≤ src)
    (origins : ∀ number position ip asn,
      getAsnFromIp experiment.routePrefix (experiment.dig number position) ip = .ok (some asn) → 0 ≤ asn)
    (unsigned : ∀ rtt ∈ rtts.map Prod.snd, '-' ∉ experiment.floats.str rtt) : CleanPath experiment.floats path rtts where
  timed := traced.1
  numbers hop member := by
    obtain ⟨number, known | ⟨position, ip, origin⟩, _⟩ := traced.2 hop member
    · rw [known]
      exact source
    · exact origins number position ip hop.1 origin
  isFloat := traced.isFloat
  unsigned hop member := unsigned hop.2 (List.mem_map.mpr ⟨hop, member, rfl⟩)

theorem clean_of_written (oneLine : settings.OneLine) (written : WrittenLog settings experiment src log) (source : 0 ≤ src)
    (origins : ∀ number position ip asn,
      getAsnFromIp experiment.routePrefix (experiment.dig number position) ip = .ok (some asn) → 0 ≤ asn)
    (unsigned : ∀ entry ∈ log, ∀ rtt ∈ entry.rtts, '-' ∉ experiment.floats.str rtt) :
    ∀ entry ∈ log, entry.Clean experiment.floats := by
  intro entry member
  have now := written.entries entry member
  cases entry with
  | error asn msg => exact printable_message now.2
  | finalGraph asn graphPath =>
      obtain ⟨_, rfl⟩ := now
      exact printable_gpickleName oneLine src
  | result asn atlas poisons path rtts =>
      exact ⟨TracedHops.clean now.2 source origins (unsigned _ member),
        written.nonempty (poisons, path) (List.mem_filterMap.mpr ⟨_, member, rfl⟩)⟩
  | lostConnectivity asn atlas poisons path rtts => exact TracedHops.clean now.2 source origins (unsigned _ member)
  | noMorePoisons asn => trivial

theorem length_originals (log : List FrrpEntry) : (log.filterMap FrrpEntry.original).length =
    ((log.filterMap FrrpEntry.recording).map Prod.fst).count ∅ := by
  induction log with
  | nil => rfl
  | cons entry rest ih =>
      cases entry with
      | result src atlas poisons path rtts =>
          by_cases empty : poisons = ∅
          · simp [FrrpEntry.original, FrrpEntry.recording, empty, ih]
          · simp [FrrpEntry.original, FrrpEntry.recording, empty, ih]
      | error src msg => exact ih
      | finalGraph src graphPath => exact ih
      | lostConnectivity src atlas poisons path rtts => exact ih
      | noMorePoisons src => exact ih

theorem WrittenLog.original (written : WrittenLog settings experiment src log) :
    (log.filterMap FrrpEntry.original).getLast?.toList = log.filterMap FrrpEntry.original := by
  have single : (log.filterMap FrrpEntry.original).length ≤ 1 := by
    rw [length_originals]
    exact List.nodup_iff_count_le_one.mp written.distinct ∅
  cases originals : log.filterMap FrrpEntry.original with
  | nil => rfl
  | cons first rest =>
      rw [originals] at single
      cases rest with
      | nil => rfl
      | cons second others => simp at single

/-- The parser gives every source the paths of its lines. -/
theorem log_round_trip (floats : Floats) (order : SetOrder Asn) (settings : Settings) (services : Nat → SourceServices)
    (limit : Nat) {sources : List (Asn × Int)} (distinct : (sources.map Prod.fst).Nodup) (oneLine : settings.OneLine)
    (numbered : Numbered settings services sources)
    (unsigned : ∀ entry ∈ frrpLog (runMeasurements floats settings limit services sources).1,
      ∀ rtt ∈ entry.rtts, '-' ∉ floats.str rtt)
    (resolved : Chronicle Resolved (frrpLog (runMeasurements floats settings limit services sources).1)) :
    ∃ runs, parseFile floats.float?
        (frrpLogFile floats order (frrpLog (runMeasurements floats settings limit services sources).1)) = .ok runs ∧
      (∀ source ∈ sources,
        let lines := aboutSource source.1 (frrpLog (runMeasurements floats settings limit services sources).1)
        (lines = [] → runs.get? source.1 = none) ∧
        (lines ≠ [] → ∃ run, runs.get? source.1 = some run ∧
          run.originalPath.toList.map (·.content) = lines.filterMap FrrpEntry.original ∧
          run.discoveredPaths.map (·.content) = lines.filterMap FrrpEntry.discovered ∧
          run.lostConnectivityPaths.map (·.content) = lines.tail.filterMap FrrpEntry.lost)) ∧
      ((runMeasurements floats settings limit services sources).2 = true → ∀ source ∈ sources,
        aboutSource source.1 (frrpLog (runMeasurements floats settings limit services sources).1) ≠ []) := by
  have writes := runMeasurements_writes floats settings limit services distinct
  generalize runMeasurements floats settings limit services sources = states at *
  have clean : ∀ entry ∈ frrpLog states.1, entry.Clean floats := by
    intro entry member
    obtain ⟨none, ⟨index, written⟩, _⟩ := writes entry.src
    have about : entry ∈ aboutSource entry.src (frrpLog states.1) := List.mem_filter.mpr ⟨member, by simp⟩
    have source : 0 ≤ entry.src := by
      by_cases inside : entry.src ∈ sources.map Prod.fst
      · obtain ⟨source, among, same⟩ := List.mem_map.mp inside
        rw [← same]
        exact numbered.sources source among
      · rw [none inside] at about
        simp at about
    exact clean_of_written oneLine written source (numbered.origins index)
      (fun other among => unsigned other (List.mem_of_mem_filter among)) entry about
  obtain ⟨rebuilt, parsed, represents⟩ := parseFile_frrpLogFile order clean resolved
  refine ⟨rebuilt.runs, parsed, fun source member => ⟨fun empty => ?_, fun nonempty => ?_⟩, fun ended source member =>
    (writes source.1).2.2 ended (List.mem_map_of_mem member)⟩
  · have known := represents.known source.1
    simpa [empty] using known
  · have known := represents.known source.1
    obtain ⟨run, found⟩ := Option.isSome_iff_exists.mp (known.trans (by simpa using nonempty))
    have paths := represents.paths source.1
    obtain ⟨_, ⟨index, written⟩, _⟩ := writes source.1
    have same : rebuilt.run source.1 = run := by simp [Rebuilt.run, found]
    rw [same] at paths
    have original := congrArg (fun paths => paths.original.toList) paths
    refine ⟨run, found, ?_, congrArg LoggedPaths.discovered paths, congrArg LoggedPaths.lost paths⟩
    rw [← written.original]
    exact (Option.toList_map ..).symm.trans original

/-- Floats without a fractional part. -/
def wholeFloats : Floats where
  isFloat rtt := ∃ whole : Nat, rtt = whole
  average rtts := (rtts.sum / rtts.length).floor.toNat
  str := wholeText
  float? := wholeFloat?
  isFloat_zero := ⟨0, rfl⟩
  isFloat_average rtts := ⟨_, rfl⟩
  float?_str := by
    rintro rtt ⟨whole, rfl⟩
    exact wholeFloat?_wholeText whole
  str_chars := by
    rintro rtt ⟨whole, rfl⟩ char member
    rw [wholeText_natCast, List.mem_append, List.mem_cons, List.mem_singleton] at member
    rcases member with digit | rfl | rfl
    · exact .inl (Text.isDigit_of_mem_ofNat digit)
    · exact .inr (by decide)
    · exact .inl rfl

def scriptedSource (paths : List (List Asn)) : SourceServices :=
  { Frrp.scripted paths with
    findProbesByAsn := .ok (some [11])
    drawGraph := .ok ()
    writeGpickle := .ok () }

def exampleSettings : Settings := ⟨"184.164.224.0/24".toList, "2".toList, "1".toList⟩

theorem origin_nonneg {asn number : Asn} {ip : Text} (known : number ∈ [0, 1, 2, 3, 4])
    (found : Frrp.originAsn (fun _ => .ok (Text.ofInt number)) ip = .ok (some asn)) : 0 ≤ asn := by
  unfold Frrp.originAsn at found
  split at found
  · simp only [except_bind_ok] at found
    have named (given : Except PyError (Option Asn)) (same : given = .ok (some asn))
        (all : given.toOption.join.all (0 ≤ ·) = true) : 0 ≤ asn := by
      subst same
      simpa [Except.toOption] using all
    refine named _ found ?_
    simp only [List.mem_cons, List.not_mem_nil, or_false] at known
    rcases known with rfl | rfl | rfl | rfl | rfl <;> decide +kernel
  · cases found

def exampleServices : Nat → SourceServices := fun _ => scriptedSource [[1, 2], [1, 3], [1, 3], [1, 2]]

theorem numbered_example : Numbered exampleSettings exampleServices [(1, 2)] where
  sources := by decide
  origins := by
    intro index number position ip asn found
    unfold getAsnFromIp at found
    have target : prefixLoopback exampleSettings.routePrefix = .ok "184.164.224.1".toList := by decide
    simp only [target, except_bind_ok] at found
    split at found
    · cases found
      decide
    · refine origin_nonneg ?_ found
      have within : ∀ path ∈ [[1, 2], [1, 3], [1, 3], [1, 2]], ∀ asn ∈ path, asn ∈ ([0, 1, 2, 3, 4] : List Asn) := by decide
      cases path : ([[1, 2], [1, 3], [1, 3], [1, 2]] : List (List Asn))[number]? with
      | none => simp [path]
      | some items =>
      cases item : items[position]? with
      | none => simp [path, item]
      | some asn =>
        simpa [path, item] using within items (List.mem_of_getElem? path) asn (List.mem_of_getElem? item)

theorem chronicle_resolved (kept : ∀ entry ∈ log, entry.lost = none) : Chronicle Resolved log := by
  intro before entry after same _ lost member
  rw [kept entry (by rw [same]; simp)] at member
  simp at member

theorem resolved_example :
    Chronicle Resolved (frrpLog (runMeasurements wholeFloats exampleSettings 3 exampleServices [(1, 2)]).1) :=
  chronicle_resolved (by decide +kernel)

theorem log_round_trip_example :
    ∃ runs, parseFile wholeFloats.float? (frrpLogFile wholeFloats .sorted
        (frrpLog (runMeasurements wholeFloats exampleSettings 3 exampleServices [(1, 2)]).1)) = .ok runs ∧
      (∀ source ∈ [((1, 2) : Asn × Int)],
        let lines := aboutSource source.1
          (frrpLog (runMeasurements wholeFloats exampleSettings 3 exampleServices [(1, 2)]).1)
        (lines = [] → runs.get? source.1 = none) ∧
        (lines ≠ [] → ∃ run, runs.get? source.1 = some run ∧
          run.originalPath.toList.map (·.content) = lines.filterMap FrrpEntry.original ∧
          run.discoveredPaths.map (·.content) = lines.filterMap FrrpEntry.discovered ∧
          run.lostConnectivityPaths.map (·.content) = lines.tail.filterMap FrrpEntry.lost)) ∧
      ((runMeasurements wholeFloats exampleSettings 3 exampleServices [(1, 2)]).2 = true →
        ∀ source ∈ [((1, 2) : Asn × Int)], aboutSource source.1
          (frrpLog (runMeasurements wholeFloats exampleSettings 3 exampleServices [(1, 2)]).1) ≠ []) :=
  log_round_trip wholeFloats .sorted exampleSettings exampleServices 3 (by decide) (by decide) numbered_example
    (by decide +kernel) resolved_example

def exampleRun (settings : Settings) (src : Asn) : List FrrpEntry :=
  frrpLog (runMeasurements wholeFloats settings 3 exampleServices [(src, 2)]).1

/-- The log is not read if the name of the experiment has a line break, and not if the number of the source has a sign. -/
theorem log_not_read :
    let broken : Settings := { exampleSettings with expId := ['1', '\n', '1'] }
    ((∀ entry ∈ exampleRun broken 1, ∀ rtt ∈ entry.rtts, '-' ∉ wholeFloats.str rtt) ∧
      Chronicle Resolved (exampleRun broken 1) ∧
      ¬ ∃ runs, parseFile wholeFloats.float? (frrpLogFile wholeFloats .sorted (exampleRun broken 1)) = .ok runs) ∧
    (∀ entry ∈ exampleRun exampleSettings (-1), ∀ rtt ∈ entry.rtts, '-' ∉ wholeFloats.str rtt) ∧
      Chronicle Resolved (exampleRun exampleSettings (-1)) ∧
      ¬ ∃ runs, parseFile wholeFloats.float? (frrpLogFile wholeFloats .sorted (exampleRun exampleSettings (-1))) = .ok runs := by
  have fails {parsed : Except PyError (Dict Asn FRRPRun)} (error : parsed.toBool = false) : ¬ ∃ runs, parsed = .ok runs := by
    intro returns
    obtain ⟨runs, done⟩ := returns
    rw [done] at error
    contradiction
  refine ⟨⟨by decide +kernel, chronicle_resolved (by decide +kernel), fails ?_⟩, by decide +kernel,
    chronicle_resolved (by decide +kernel), fails ?_⟩
  · rw [frrpLogFile, Frrp.parseFile_eq comments_frrpHeader]
    decide +kernel
  · rw [frrpLogFile, Frrp.parseFile_eq comments_frrpHeader]
    decide +kernel

end Writing

end ActiveBgp.Peering

import ActiveBgp.Peering.Acceptance

namespace ActiveBgp.Peering

open ActiveBgp.Python ActiveBgp.Data
open ActiveBgp.Frrp (Asn FRRPRun Notice Rebuilt Remarks beforeComma beforeComma_eq_self cutName_printable oneLine_notice
  oneLine_restLines parseFile parseLine readlines_fronted sourceRemarks startsLost)

namespace FrrpEntry

def message : FrrpEntry → Option Text
  | .error _ msg => some msg
  | _ => none

def graph : FrrpEntry → Option Text
  | .finalGraph _ graphPath => some graphPath
  | _ => none

end FrrpEntry

/-- What is said by the lines that follow a line break in the name of a graph. -/
def restNotices (log : List FrrpEntry) : List Notice := (log.flatMap FrrpEntry.rest).filterMap Frrp.notice?

/-- The log of a source whose errors and whose graph the parser keeps. -/
def Kept (src : Asn) (log : List FrrpEntry) : Prop :=
  if startsLost (Frrp.aboutSource src (logNotices (logLines log))) then
    (∀ entry ∈ aboutSource src log, entry.graph = none) ∧ ∀ notice ∈ Frrp.aboutSource src (restNotices log), notice.message = none
  else
    (∀ entry ∈ aboutSource src log, entry.message = none) ∧
      ∀ graphPath ∈ ((aboutSource src log).filterMap FrrpEntry.graph).getLast?, ',' ∉ graphPath ∧ graphPath.OneLine

section Errors

variable {log : List FrrpEntry} {src : Asn}

theorem logNotices_cons (entry : FrrpEntry) (log : List FrrpEntry) : logNotices (logLines (entry :: log)) =
    [entry.cut.notice] ++ (entry.rest.filterMap Frrp.notice? ++ logNotices (logLines log)) := by
  have rest (texts : List Text) : logNotices (texts.map .rest) = texts.filterMap Frrp.notice? := by
    rw [logNotices, List.filterMap_map]
    rfl
  rw [← rest]
  simp [logLines, logNotices, FrrpEntry.lines, Frrp.LogLine.notice?]

theorem restNotices_cons (entry : FrrpEntry) (log : List FrrpEntry) :
    restNotices (entry :: log) = entry.rest.filterMap Frrp.notice? ++ restNotices log := by
  simp [restNotices]

def errorsAbout (src : Asn) (notices : List Notice) : List Text := (Frrp.aboutSource src notices).filterMap Notice.message

theorem errorsAbout_append (src : Asn) (notices more : List Notice) :
    errorsAbout src (notices ++ more) = errorsAbout src notices ++ errorsAbout src more := by
  rw [errorsAbout, Frrp.aboutSource_append, List.filterMap_append, errorsAbout, errorsAbout]

theorem errorsAbout_notice {entry : FrrpEntry} (plain : ∀ msg ∈ entry.message, beforeComma msg = msg) (log : List FrrpEntry) :
    (aboutSource src (entry :: log)).filterMap FrrpEntry.message =
      errorsAbout src [entry.cut.notice] ++ (aboutSource src log).filterMap FrrpEntry.message := by
  have same : entry.cut.notice.src = entry.src ∧ entry.cut.notice.message = entry.message := by
    cases entry with
    | error asn msg => exact ⟨rfl, congrArg some (plain msg rfl)⟩
    | finalGraph asn graphPath => exact ⟨rfl, rfl⟩
    | result asn atlas poisons path rtts => exact ⟨rfl, rfl⟩
    | lostConnectivity asn atlas poisons path rtts => exact ⟨rfl, rfl⟩
    | noMorePoisons asn => exact ⟨rfl, rfl⟩
  by_cases here : entry.src = src
  · cases message : entry.message <;> simp [aboutSource, errorsAbout, Frrp.aboutSource, same, here, message]
  · simp [aboutSource, errorsAbout, Frrp.aboutSource, same, here]

/-- The errors of the file are those of the log and those that follow a line break. -/
theorem errorsAbout_log (plain : ∀ entry ∈ log, ∀ msg ∈ entry.message, beforeComma msg = msg) :
    (errorsAbout src (logNotices (logLines log))).length =
      ((aboutSource src log).filterMap FrrpEntry.message).length + (errorsAbout src (restNotices log)).length ∧
    (errorsAbout src (restNotices log) = [] →
      errorsAbout src (logNotices (logLines log)) = (aboutSource src log).filterMap FrrpEntry.message) := by
  induction log with
  | nil => exact ⟨rfl, fun _ => rfl⟩
  | cons entry rest ih =>
      obtain ⟨length, same⟩ := ih fun other member => plain other (List.mem_cons_of_mem entry member)
      rw [logNotices_cons, restNotices_cons, errorsAbout_append, errorsAbout_append, errorsAbout_append,
        errorsAbout_notice (plain entry List.mem_cons_self)]
      constructor
      · simp only [List.length_append]
        omega
      · intro none
        obtain ⟨now, later⟩ := List.append_eq_nil_iff.mp none
        rw [now, same later, List.nil_append]

theorem errorsAbout_eq_iff (plain : ∀ entry ∈ log, ∀ msg ∈ entry.message, beforeComma msg = msg) :
    errorsAbout src (logNotices (logLines log)) = (aboutSource src log).filterMap FrrpEntry.message ↔
      ∀ notice ∈ Frrp.aboutSource src (restNotices log), notice.message = none := by
  obtain ⟨length, same⟩ := @errorsAbout_log log src plain
  rw [← List.filterMap_eq_nil_iff]
  constructor
  · intro equal
    rw [equal] at length
    exact List.length_eq_zero_iff.mp (Nat.left_eq_add.mp length)
  · exact same

end Errors

section Graphs

variable {settings : Settings} {log : List FrrpEntry} {src : Asn}

/-- The text of a notice is on one line, whatever the name of the experiment. -/
theorem oneLine_logNotices (written : ∀ entry ∈ log, ∃ experiment, entry.Written settings experiment entry.src) :
    ∀ notice ∈ logNotices (logLines log), ∀ text ∈ notice.text, text.OneLine := by
  have cut {name : Text} (oneLine : name.OneLine) : (beforeComma name).OneLine :=
    ⟨fun feed => oneLine.1 ((List.takeWhile_prefix _).subset feed),
      fun carriage => oneLine.2 ((List.takeWhile_prefix _).subset carriage)⟩
  induction log with
  | nil => simp [logNotices, logLines]
  | cons entry rest ih =>
      obtain ⟨experiment, now⟩ := written entry List.mem_cons_self
      rw [logNotices_cons]
      refine List.forall_mem_append.mpr ⟨?_, List.forall_mem_append.mpr
        ⟨?_, ih fun other member => written other (List.mem_cons_of_mem entry member)⟩⟩
      · intro notice member text said
        obtain rfl := List.mem_singleton.mp member
        cases entry with
        | error asn msg =>
            obtain rfl : beforeComma msg = text := Option.some.inj said
            exact cut (Frrp.printable_message now.2).oneLine
        | finalGraph asn graphPath =>
            obtain rfl : beforeComma (Frrp.cutName graphPath) = text := Option.some.inj said
            have same : graphPath = settings.gpickleName asn := now.2
            subst same
            obtain ⟨_, _, _, printable⟩ := readlines_fronted (fronted_gpickleName settings _)
              (show Text.OneLine [] by decide)
            exact cut printable.oneLine
        | result asn atlas poisons path rtts => cases said
        | lostConnectivity asn atlas poisons path rtts => cases said
        | noMorePoisons asn => cases said
      · intro notice member text said
        obtain ⟨line, among, found⟩ := List.mem_filterMap.mp member
        cases entry with
        | finalGraph asn graphPath => exact oneLine_notice (oneLine_restLines among) found said
        | error asn msg => simp [FrrpEntry.rest] at among
        | result asn atlas poisons path rtts => simp [FrrpEntry.rest] at among
        | lostConnectivity asn atlas poisons path rtts => simp [FrrpEntry.rest] at among
        | noMorePoisons asn => simp [FrrpEntry.rest] at among

theorem oneLine_of_gpickleName (oneLine : (settings.gpickleName src).OneLine) : settings.OneLine := by
  have part {text : Text} (inside : ∀ char ∈ text, char ∈ settings.gpickleName src) : text.OneLine :=
    ⟨fun feed => oneLine.1 (inside _ feed), fun carriage => oneLine.2 (inside _ carriage)⟩
  constructor
  · exact part fun char member => List.mem_append_left _ (List.mem_append_left _ (List.mem_append_left _
      (List.mem_append_right _ member)))
  · exact part fun char member => List.mem_append_left _ (List.mem_append_right _ member)

/-- Where the name of the experiment is on one line, the lines of the file are those of the log. -/
theorem logNotices_oneLine (oneLine : settings.OneLine)
    (written : ∀ entry ∈ log, ∃ experiment, entry.Written settings experiment entry.src) :
    logNotices (logLines log) = log.map FrrpEntry.notice := by
  induction log with
  | nil => rfl
  | cons entry rest ih =>
      obtain ⟨experiment, now⟩ := written entry List.mem_cons_self
      rw [logNotices_cons, ih fun other member => written other (List.mem_cons_of_mem entry member)]
      cases entry with
      | finalGraph asn graphPath =>
          have same : graphPath = settings.gpickleName asn := now.2
          subst same
          obtain ⟨whole, none⟩ := cutName_printable (printable_gpickleName oneLine asn)
          simp [FrrpEntry.cut, FrrpEntry.rest, whole, none]
      | error asn msg => rfl
      | result asn atlas poisons path rtts => rfl
      | lostConnectivity asn atlas poisons path rtts => rfl
      | noMorePoisons asn => rfl

theorem graphs_notice (src : Asn) (log : List FrrpEntry) :
    (Frrp.aboutSource src (log.map FrrpEntry.notice)).filterMap Notice.graph =
      ((aboutSource src log).filterMap FrrpEntry.graph).map beforeComma := by
  induction log with
  | nil => rfl
  | cons entry rest ih =>
      have same : entry.notice.src = entry.src ∧ entry.notice.graph = entry.graph.map beforeComma := by
        cases entry with
        | error asn msg => exact ⟨rfl, rfl⟩
        | finalGraph asn graphPath => exact ⟨rfl, rfl⟩
        | result asn atlas poisons path rtts => exact ⟨rfl, rfl⟩
        | lostConnectivity asn atlas poisons path rtts => exact ⟨rfl, rfl⟩
        | noMorePoisons asn => exact ⟨rfl, rfl⟩
      unfold aboutSource Frrp.aboutSource at ih ⊢
      by_cases here : entry.src = src
      · cases graph : entry.graph <;> simp [same, here, graph, ih]
      · simp [same, here, ih]

theorem text_of_graph {notice : Notice} {graphPath : Text} (said : notice.graph = some graphPath) :
    notice.text = some graphPath := by
  unfold Notice.graph at said
  split at said
  · exact said
  · cases said

/-- The name of a graph repeats what the settings say, so it is on one line only if they are. -/
theorem oneLine_of_graph {entry : FrrpEntry} {experiment : Experiment} {graphPath : Text}
    (written : entry.Written settings experiment entry.src) (same : entry.graph = some graphPath)
    (oneLine : graphPath.OneLine) : settings.OneLine := by
  cases entry with
  | finalGraph asn name =>
      obtain rfl : name = graphPath := Option.some.inj same
      have named : name = settings.gpickleName asn := written.2
      exact oneLine_of_gpickleName (named ▸ oneLine)
  | error asn msg => cases same
  | result asn atlas poisons path rtts => cases same
  | lostConnectivity asn atlas poisons path rtts => cases same
  | noMorePoisons asn => cases same

/-- The parser reads the last name of a graph up to its first comma. -/
theorem getLast?_graphs {graphPath : Text}
    (written : ∀ entry ∈ log, ∃ experiment, entry.Written settings experiment entry.src)
    (last : graphPath ∈ ((aboutSource src log).filterMap FrrpEntry.graph).getLast?) (oneLine : graphPath.OneLine) :
    ((Frrp.aboutSource src (logNotices (logLines log))).filterMap Notice.graph).getLast? = some (beforeComma graphPath) := by
  obtain ⟨entry, inside, same⟩ := List.mem_filterMap.mp (List.mem_of_getLast? last)
  obtain ⟨experiment, now⟩ := written entry (List.mem_of_mem_filter inside)
  have settled : settings.OneLine := oneLine_of_graph now same oneLine
  rw [logNotices_oneLine settled written, graphs_notice, List.getLast?_map, Option.mem_def.mp last, Option.map_some]

end Graphs

section Runs

theorem message_plain {entry : FrrpEntry} {experiment : Experiment} {src : Asn}
    (written : entry.Written settings experiment src) {msg : Text} (about : entry.message = some msg) : ',' ∉ msg := by
  cases entry with
  | error asn text =>
      cases about
      have known := written.2
      rw [List.mem_cons, List.mem_cons, List.mem_singleton] at known
      rcases known with rfl | rfl | rfl <;> decide
  | finalGraph asn graphPath => cases about
  | result asn atlas poisons path rtts => cases about
  | lostConnectivity asn atlas poisons path rtts => cases about
  | noMorePoisons asn => cases about

/-- The run of a source has the errors and the graph of its lines exactly if they are kept. -/
theorem log_remarks_iff (floats : Floats) (order : SetOrder Asn) (settings : Settings) (services : Nat → SourceServices)
    (limit : Nat) (sources : List (Asn × Int)) {runs : Dict Asn FRRPRun}
    (parsed : parseFile floats.float?
      (frrpLogFile floats order (frrpLog (runMeasurements floats settings limit services sources).1)) = .ok runs)
    {src : Asn} {run : FRRPRun} (found : runs.get? src = some run) :
    let log := frrpLog (runMeasurements floats settings limit services sources).1
    (run.errors = (aboutSource src log).filterMap FrrpEntry.message ∧
      ∀ graphPath ∈ ((aboutSource src log).filterMap FrrpEntry.graph).getLast?, run.finalGraphPath = some graphPath) ↔
      Kept src log := by
  intro log
  obtain ⟨rebuilt, rfl, knows⟩ := (parseFile_runMeasurements floats order settings services limit sources).1 runs parsed
  have written (entry : FrrpEntry) (member : entry ∈ log) : ∃ experiment, entry.Written settings experiment entry.src := by
    obtain ⟨index, now⟩ := runMeasurements_written floats settings limit services sources entry member
    exact ⟨_, now⟩
  have plain (entry : FrrpEntry) (member : entry ∈ log) (msg : Text) (about : msg ∈ entry.message) : beforeComma msg = msg := by
    obtain ⟨experiment, now⟩ := written entry member
    exact beforeComma_eq_self.mpr (message_plain now about)
  have read : Frrp.remarks run = sourceRemarks (Frrp.aboutSource src (logNotices (logLines log))) := by
    have same : rebuilt.run src = run := by simp [Rebuilt.run, found]
    rw [← same]
    exact knows.remarks src
  have errors := congrArg Remarks.errors read
  have graph := congrArg Remarks.finalGraphPath read
  simp only [Frrp.remarks] at errors graph
  rw [errors, graph, sourceRemarks, Kept]
  cases startsLost (Frrp.aboutSource src (logNotices (logLines log))) with
  | true =>
      simp only [if_true, reduceCtorEq, imp_false]
      rw [and_comm]
      refine and_congr ?_ (errorsAbout_eq_iff plain)
      rw [← List.filterMap_eq_nil_iff, ← List.getLast?_eq_none_iff, Option.eq_none_iff_forall_not_mem]
  | false =>
      simp only [Bool.false_eq_true, if_false]
      refine and_congr ?_ (forall₂_congr fun graphPath last => ?_)
      · rw [eq_comm, List.filterMap_eq_nil_iff]
      · constructor
        · intro kept
          obtain ⟨notice, among, said⟩ := List.mem_filterMap.mp (List.mem_of_getLast? kept)
          have oneLine := oneLine_logNotices written notice (List.mem_of_mem_filter among) graphPath (text_of_graph said)
          rw [getLast?_graphs written last oneLine] at kept
          exact ⟨beforeComma_eq_self.mp (Option.some.inj kept), oneLine⟩
        · intro whole
          rw [getLast?_graphs written last whole.2, beforeComma_eq_self.mpr whole.1]

end Runs

section Example

/-- The source has no probe. -/
def probelessServices : Nat → SourceServices := fun _ => { scriptedSource [] with findProbesByAsn := .ok none }

def exampleLog (services : Nat → SourceServices) : List FrrpEntry :=
  frrpLog (runMeasurements wholeFloats exampleSettings 3 services [(1, 2)]).1

def parseExample (services : Nat → SourceServices) : Except PyError (Dict Asn FRRPRun) :=
  parseFile wholeFloats.float? (frrpLogFile wholeFloats .sorted (exampleLog services))

theorem parseExample_eq (services : Nat → SourceServices) : parseExample services =
    ((textLines wholeFloats .sorted (exampleLog services)).foldlM (parseLine wholeFloats.float?) ⟨0, .empty⟩).map Rebuilt.runs :=
  parseFile_frrpLogFile_eq .sorted (runMeasurements_legible wholeFloats (by decide) 3 services [(1, 2)])

theorem parseExample_run {services : Nat → SourceServices} {good : FRRPRun → Bool}
    (holds : (((parseExample services).toOption.bind fun runs => runs.get? 1).any good) = true) :
    ∃ runs run, parseExample services = .ok runs ∧ runs.get? 1 = some run ∧ good run = true := by
  obtain ⟨run, found, kept⟩ := (Option.any_eq_true _ _).mp holds
  obtain ⟨runs, parsed, found⟩ := Option.bind_eq_some_iff.mp found
  refine ⟨runs, run, ?_, found, kept⟩
  cases done : parseExample services with
  | error error => simp [done, Except.toOption] at parsed
  | ok value => simpa [done, Except.toOption] using parsed

/-- The error of a source without a probe is not kept. -/
theorem error_not_kept : ∃ runs run, parseExample probelessServices = .ok runs ∧ runs.get? 1 = some run ∧
    run.errors ≠ (aboutSource 1 (exampleLog probelessServices)).filterMap FrrpEntry.message := by
  have empty : (((parseExample probelessServices).toOption.bind fun runs => runs.get? 1).any
      fun run => run.errors.isEmpty) = true := by
    rw [parseExample_eq]
    decide +kernel
  obtain ⟨runs, run, parsed, found, none⟩ := parseExample_run empty
  refine ⟨runs, run, parsed, found, ?_⟩
  rw [List.isEmpty_iff.mp none]
  decide

theorem log_remarks_iff_example : ∃ runs run, parseExample exampleServices = .ok runs ∧ runs.get? 1 = some run ∧
    ((run.errors = (aboutSource 1 (exampleLog exampleServices)).filterMap FrrpEntry.message ∧
      ∀ graphPath ∈ ((aboutSource 1 (exampleLog exampleServices)).filterMap FrrpEntry.graph).getLast?,
        run.finalGraphPath = some graphPath) ↔ Kept 1 (exampleLog exampleServices)) := by
  have some : (((parseExample exampleServices).toOption.bind fun runs => runs.get? 1).any fun _ => true) = true := by
    rw [parseExample_eq]
    decide +kernel
  obtain ⟨runs, run, parsed, found, _⟩ := parseExample_run some
  exact ⟨runs, run, parsed, found,
    log_remarks_iff wholeFloats .sorted exampleSettings exampleServices 3 [(1, 2)] parsed found⟩

end Example

end ActiveBgp.Peering

import ActiveBgp.Data.History
import ActiveBgp.Frrp.LogLines

namespace ActiveBgp.Frrp

open ActiveBgp.Python ActiveBgp.Data

/-! # Any line of a file

Of the records before it, a record depends on little: which sources they are about,
and whether the first one about its source says that the connectivity was lost.  So
it is enough to know the notices of the lines, whatever wrote them.
-/

/-- What a line says besides its path. -/
structure Notice where
  src : Asn
  code : Int
  text : Option Text

namespace Notice

def message (notice : Notice) : Option Text := if notice.code = -1 then notice.text else none

def graph (notice : Notice) : Option Text := if notice.code = 1 then notice.text else none

end Notice

/-- The text is that of an error or the name of a graph. -/
def Record.notice (record : Record) : Notice :=
  ⟨record.src, record.code, if record.code = -1 ∨ record.code = 1 then record.fields[3]?.map Field.str else none⟩

def notice? (line : Text) : Option Notice := (readRecord line).toOption.join.map Record.notice

def aboutSource (src : Asn) (notices : List Notice) : List Notice := notices.filter fun notice => notice.src = src

/-- The first line of the source is about lost connectivity. -/
def startsLost (notices : List Notice) : Bool := notices.head?.any fun notice => notice.code = 2

/-- What a run says besides its paths. -/
structure Remarks where
  errors : List Text
  finalGraphPath : Option Text
  initialLostConnectivityFailure : Bool

def remarks (run : FRRPRun) : Remarks := ⟨run.errors, run.finalGraphPath, run.initialLostConnectivityFailure⟩

/-- What the parser makes of the lines of one source. -/
def sourceRemarks (notices : List Notice) : Remarks :=
  if startsLost notices then ⟨notices.filterMap Notice.message, none, true⟩
  else ⟨[], (notices.filterMap Notice.graph).getLast?, false⟩

/-- A further line of the source. -/
def Remarks.add (preexisting : Bool) (remarks : Remarks) (notice : Notice) : Remarks where
  errors := if remarks.initialLostConnectivityFailure then remarks.errors ++ notice.message.toList else remarks.errors
  finalGraphPath :=
    if remarks.initialLostConnectivityFailure then remarks.finalGraphPath else notice.graph.or remarks.finalGraphPath
  initialLostConnectivityFailure :=
    remarks.initialLostConnectivityFailure || (!preexisting && decide (notice.code = 2))

theorem sourceRemarks_snoc (notices : List Notice) (notice : Notice) :
    sourceRemarks (notices ++ [notice]) = (sourceRemarks notices).add (decide (notices ≠ [])) notice := by
  rcases eq_or_ne notices [] with rfl | nonempty
  · by_cases lost : notice.code = 2
    · simp [sourceRemarks, startsLost, Remarks.add, Notice.message, Notice.graph, lost]
    · cases graph : notice.graph <;> simp [sourceRemarks, startsLost, Remarks.add, graph, lost]
  · have starts : startsLost (notices ++ [notice]) = startsLost notices := by
      rw [startsLost, List.head?_append_of_ne_nil _ nonempty, startsLost]
    unfold sourceRemarks
    rw [starts, List.filterMap_append, List.filterMap_append, decide_eq_true nonempty]
    cases startsLost notices with
    | true => cases message : notice.message <;> simp [Remarks.add, message]
    | false => cases graph : notice.graph <;> simp [Remarks.add, graph]

section Acceptance

variable (float? : Text → Option ℚ)

/-- What the parser needs of a record with one of the codes that it knows. -/
structure Record.Accepted (before : List Notice) (record : Record) : Prop where
  error : record.code = -1 → startsLost (aboutSource record.src before) = true → record.fields[3]?.isSome = true
  finalGraph : record.code = 1 → startsLost (aboutSource record.src before) = false → record.fields[3]?.isSome = true
  lostConnectivity : record.code = 2 → aboutSource record.src before ≠ [] → PathFields float? record.fields
  result : record.code = 0 → PathFields float? record.fields

variable {float? : Text → Option ℚ} {before : List Notice} {record : Record}

theorem Record.accepted_error (code : record.code = -1) : record.Accepted float? before ↔
    (startsLost (aboutSource record.src before) = true → record.fields[3]?.isSome = true) :=
  ⟨fun accepted => accepted.error code, fun needed => ⟨fun _ => needed, by simp [code], by simp [code], by simp [code]⟩⟩

theorem Record.accepted_finalGraph (code : record.code = 1) : record.Accepted float? before ↔
    (startsLost (aboutSource record.src before) = false → record.fields[3]?.isSome = true) :=
  ⟨fun accepted => accepted.finalGraph code, fun needed => ⟨by simp [code], fun _ => needed, by simp [code], by simp [code]⟩⟩

theorem Record.accepted_lostConnectivity (code : record.code = 2) :
    record.Accepted float? before ↔ (aboutSource record.src before ≠ [] → PathFields float? record.fields) :=
  ⟨fun accepted => accepted.lostConnectivity code,
    fun needed => ⟨by simp [code], by simp [code], fun _ => needed, by simp [code]⟩⟩

theorem Record.accepted_result (code : record.code = 0) :
    record.Accepted float? before ↔ PathFields float? record.fields :=
  ⟨fun accepted => accepted.result code, fun needed => ⟨by simp [code], by simp [code], by simp [code], fun _ => needed⟩⟩

theorem Record.accepted_other (code : record.code ∉ ([-1, 1, 2, 0] : List Int)) : record.Accepted float? before := by
  simp only [List.mem_cons, List.not_mem_nil, or_false, not_or] at code
  exact ⟨by simp [code], by simp [code], by simp [code], by simp [code]⟩

variable (float?)

/-- A line that the parser gets through after these. -/
def Acceptable (before : List Notice) (line : Text) : Prop :=
  ∃ record?, readRecord line = .ok record? ∧ ∀ record ∈ record?, record.Accepted float? before

end Acceptance

section Runs

variable {float? : Text → Option ℚ} {run after : FRRPRun}

theorem remarks_place (run : FRRPRun) (lost original : Bool) (path : AnnotatedASPath) :
    remarks (run.place lost original path) = remarks run := by
  cases lost with
  | true => rfl
  | false =>
      cases original with
      | true => rfl
      | false =>
          simp only [FRRPRun.place, FRRPRun.addDiscoveredPath, Bool.false_eq_true, if_false]
          split <;> rfl

theorem recordedPaths_place (run : FRRPRun) (lost original : Bool) (path : AnnotatedASPath) :
    (run.place lost original path).recordedPaths = [] ↔ lost = true ∧ run.recordedPaths = [] := by
  cases lost with
  | true => simp [FRRPRun.place, FRRPRun.addLostConnectivityPath, FRRPRun.recordedPaths]
  | false =>
      cases original with
      | true => simp [FRRPRun.place, FRRPRun.recordedPaths]
      | false =>
          by_cases empty : run.recordedPaths = []
          · have unique : run.isUniquePath path = true := by simp [FRRPRun.isUniquePath, empty]
            simp [FRRPRun.place, FRRPRun.addDiscoveredPath, unique, FRRPRun.recordedPaths]
          · simp only [FRRPRun.place, FRRPRun.addDiscoveredPath, Bool.false_eq_true, if_false, false_and, iff_false]
            split
            · simp [FRRPRun.recordedPaths]
            · exact empty

theorem updateRun_returns_iff (identity : Nat) (preexisting : Bool) (run : FRRPRun) (code : Int) (fields : List Field) :
    (∃ after, updateRun float? identity preexisting run code fields = .ok after) ↔
      (code = -1 → run.initialLostConnectivityFailure = true → fields[3]?.isSome = true) ∧
        (code = 1 → run.initialLostConnectivityFailure = false → fields[3]?.isSome = true) ∧
        (code = 2 → preexisting = true → PathFields float? fields) ∧ (code = 0 → PathFields float? fields) := by
  have returned (value : FRRPRun) : (pure value : Except PyError FRRPRun) = .ok value := rfl
  unfold updateRun
  by_cases error : code = -1
  · subst error
    cases run.initialLostConnectivityFailure <;> cases fields[3]? <;> simp [orRaise, except_bind_ok, except_bind_error, returned]
  by_cases graph : code = 1
  · subst graph
    cases run.initialLostConnectivityFailure <;> cases fields[3]? <;> simp [orRaise, except_bind_ok, except_bind_error, returned]
  by_cases lost : code = 2
  · subst lost
    cases preexisting <;> simp [parseValidEntry_returns_iff, returned]
  by_cases result : code = 0
  · subst result
    simp [parseValidEntry_returns_iff]
  simp [error, graph, lost, result, returned]

theorem updateRun_remarks {identity : Nat} {preexisting : Bool} {record : Record}
    (updated : updateRun float? identity preexisting run record.code record.fields = .ok after) :
    remarks after = (remarks run).add preexisting record.notice ∧
      (after.recordedPaths = [] ↔ run.recordedPaths = [] ∧ record.code ≠ 0) := by
  unfold updateRun at updated
  by_cases error : record.code = -1
  · rw [if_pos error] at updated
    cases lost : run.initialLostConnectivityFailure with
    | false =>
        rw [lost] at updated
        cases updated
        simp [remarks, Remarks.add, Record.notice, Notice.graph, lost, error]
    | true =>
        rw [lost, if_pos rfl] at updated
        obtain ⟨field, found, done⟩ := except_bind_eq_ok.mp updated
        cases done
        simp [remarks, Remarks.add, Record.notice, Notice.message, FRRPRun.addError, FRRPRun.recordedPaths,
          orRaise_eq_ok.mp found, lost, error]
  rw [if_neg error] at updated
  by_cases graph : record.code = 1
  · rw [if_pos graph] at updated
    cases lost : run.initialLostConnectivityFailure with
    | true =>
        rw [lost] at updated
        cases updated
        simp [remarks, Remarks.add, Record.notice, Notice.message, lost, graph]
    | false =>
        rw [lost, if_neg (by decide)] at updated
        obtain ⟨field, found, done⟩ := except_bind_eq_ok.mp updated
        cases done
        simp [remarks, Remarks.add, Record.notice, Notice.graph, FRRPRun.recordedPaths, orRaise_eq_ok.mp found, lost,
          graph]
  rw [if_neg graph] at updated
  by_cases lost : record.code = 2
  · rw [if_pos lost] at updated
    cases preexisting with
    | true =>
        obtain ⟨_, original, path, rfl⟩ := parseValidEntry_ok updated
        have silent : remarks run = (remarks run).add true record.notice := by
          simp [remarks, Remarks.add, Record.notice, Notice.message, Notice.graph, error, graph]
        exact ⟨(remarks_place run true original path).trans silent, by simp [recordedPaths_place, lost]⟩
    | false =>
        cases updated
        simp [remarks, Remarks.add, Record.notice, Notice.message, Notice.graph, FRRPRun.recordedPaths, lost]
  have quiet : remarks run = (remarks run).add preexisting record.notice := by
    simp [remarks, Remarks.add, Record.notice, Notice.message, Notice.graph, error, graph, lost]
  rw [if_neg lost] at updated
  by_cases result : record.code = 0
  · rw [if_pos result] at updated
    obtain ⟨_, original, path, rfl⟩ := parseValidEntry_ok updated
    exact ⟨(remarks_place run false original path).trans quiet, by simp [recordedPaths_place, result]⟩
  · rw [if_neg result] at updated
    cases updated
    exact ⟨quiet, by simp [result]⟩

end Runs

section Files

variable {float? : Text → Option ℚ} {rebuilt after : Rebuilt} {notices : List Notice} {record : Record}

theorem aboutSource_append (src : Asn) (notices more : List Notice) :
    aboutSource src (notices ++ more) = aboutSource src notices ++ aboutSource src more := List.filter_append ..

theorem aboutSource_snoc (src : Asn) (notices : List Notice) (notice : Notice) :
    aboutSource src (notices ++ [notice]) =
      if notice.src = src then aboutSource src notices ++ [notice] else aboutSource src notices := by
  rw [aboutSource_append]
  split
  · rename_i same
    simp [aboutSource, same]
  · rename_i different
    simp [aboutSource, different]

/-- The runs know what the notices say. -/
structure Knows (rebuilt : Rebuilt) (notices : List Notice) : Prop where
  known : ∀ src, (rebuilt.runs.get? src).isSome = decide (aboutSource src notices ≠ [])
  remarks : ∀ src, remarks (rebuilt.run src) = sourceRemarks (aboutSource src notices)
  pathless : ∀ src, (rebuilt.run src).recordedPaths = [] ↔ ∀ notice ∈ aboutSource src notices, notice.code ≠ 0

theorem knows_nil : Knows ⟨0, .empty⟩ [] := ⟨fun _ => rfl, fun _ => rfl, fun _ => iff_of_true rfl (by simp [aboutSource])⟩

theorem Knows.update (knows : Knows rebuilt notices) (updated : rebuilt.update float? record = .ok after) :
    Knows after (notices ++ [record.notice]) := by
  obtain ⟨run, changed, done⟩ := except_bind_eq_ok.mp updated
  obtain rfl : ⟨rebuilt.lines + 1, rebuilt.runs.set record.src run⟩ = after := Except.ok.inj done
  obtain ⟨said, pathless⟩ := updateRun_remarks changed
  have run_eq (src : Asn) : Rebuilt.run ⟨rebuilt.lines + 1, rebuilt.runs.set record.src run⟩ src =
      if record.src = src then run else rebuilt.run src := by
    simp only [Rebuilt.run, Dict.get?_set]
    split <;> rfl
  have about (src : Asn) : aboutSource src (notices ++ [record.notice]) =
      if record.src = src then aboutSource src notices ++ [record.notice] else aboutSource src notices :=
    aboutSource_snoc src notices record.notice
  constructor
  case known =>
    intro src
    rw [Dict.get?_set, about]
    split
    · simp
    · exact knows.known src
  case remarks =>
    intro src
    rw [run_eq, about]
    split
    · rename_i same
      subst same
      rw [said, knows.remarks, knows.known, sourceRemarks_snoc]
    · exact knows.remarks src
  case pathless =>
    intro src
    rw [run_eq, about]
    split
    · rename_i same
      subst same
      rw [pathless, knows.pathless, List.forall_mem_append, List.forall_mem_singleton]
      rfl
    · exact knows.pathless src

theorem Knows.update_returns_iff (knows : Knows rebuilt notices) (record : Record) :
    (∃ after, rebuilt.update float? record = .ok after) ↔ record.Accepted float? notices := by
  have lost : (rebuilt.run record.src).initialLostConnectivityFailure = startsLost (aboutSource record.src notices) := by
    refine (congrArg Remarks.initialLostConnectivityFailure (knows.remarks record.src)).trans ?_
    unfold sourceRemarks
    split
    · rename_i starts
      exact starts.symm
    · rename_i starts
      exact (eq_false_of_ne_true starts).symm
  have returns : (∃ after, rebuilt.update float? record = .ok after) ↔
      ∃ after, updateRun float? rebuilt.lines (rebuilt.runs.get? record.src).isSome (rebuilt.run record.src) record.code
        record.fields = .ok after := by
    constructor
    · intro returns
      obtain ⟨after, updated⟩ := returns
      obtain ⟨run, changed, _⟩ := except_bind_eq_ok.mp updated
      exact ⟨run, changed⟩
    · intro returns
      obtain ⟨run, changed⟩ := returns
      exact ⟨_, except_bind_eq_ok.mpr ⟨run, changed, rfl⟩⟩
  rw [returns, updateRun_returns_iff, lost, knows.known, decide_eq_true_iff]
  exact ⟨fun needs => ⟨needs.1, needs.2.1, needs.2.2.1, needs.2.2.2⟩,
    fun accepted => ⟨accepted.error, accepted.finalGraph, accepted.lostConnectivity, accepted.result⟩⟩

theorem parseLine_returns_iff (knows : Knows rebuilt notices) (line : Text) :
    (∃ after, parseLine float? rebuilt line = .ok after) ↔ Acceptable float? notices line := by
  unfold Acceptable
  rw [parseLine_eq]
  cases readRecord line with
  | error error => simp [except_bind_error]
  | ok record? =>
      cases record? with
      | none => simp [except_bind_ok]
      | some record => simpa [except_bind_ok] using knows.update_returns_iff record

theorem Knows.parseLine {line : Text} (knows : Knows rebuilt notices) (parsed : parseLine float? rebuilt line = .ok after) :
    Knows after (notices ++ (notice? line).toList) := by
  rw [parseLine_eq] at parsed
  obtain ⟨record?, read, done⟩ := except_bind_eq_ok.mp parsed
  cases record? with
  | none =>
      obtain rfl : rebuilt = after := Except.ok.inj done
      simpa [notice?, read, Except.toOption] using knows
  | some record =>
      have updated : rebuilt.update float? record = .ok after := done
      simpa [notice?, read, Except.toOption] using knows.update updated

/-- A file is parsed exactly if each of its lines is acceptable after those before it. -/
theorem parse_returns_iff (lines : List Text) :
    (∀ rebuilt, lines.foldlM (Frrp.parseLine float?) ⟨0, .empty⟩ = .ok rebuilt → Knows rebuilt (lines.filterMap notice?)) ∧
    ((∃ rebuilt, lines.foldlM (Frrp.parseLine float?) ⟨0, .empty⟩ = .ok rebuilt) ↔
      Chronicle (fun before line => Acceptable float? (before.filterMap notice?) line) lines) := by
  induction lines using List.reverseRecOn with
  | nil =>
      refine ⟨fun rebuilt done => ?_, iff_of_true ⟨_, rfl⟩ chronicle_nil⟩
      cases done
      exact knows_nil
  | append_singleton earlier line ih =>
      obtain ⟨known, returns⟩ := ih
      rw [List.foldlM_append, chronicle_snoc, ← returns]
      constructor
      · intro rebuilt done
        obtain ⟨middle, before, done⟩ := except_bind_eq_ok.mp done
        rw [List.foldlM_cons] at done
        obtain ⟨after, parsed, ended⟩ := except_bind_eq_ok.mp done
        cases ended
        have knows := (known middle before).parseLine parsed
        rw [List.filterMap_append]
        cases notice : notice? line <;> simpa [notice] using knows
      · constructor
        · intro all
          obtain ⟨rebuilt, done⟩ := all
          obtain ⟨middle, before, done⟩ := except_bind_eq_ok.mp done
          rw [List.foldlM_cons] at done
          obtain ⟨after, parsed, _⟩ := except_bind_eq_ok.mp done
          exact ⟨⟨middle, before⟩, (parseLine_returns_iff (known middle before) line).mp ⟨after, parsed⟩⟩
        · intro both
          obtain ⟨⟨middle, before⟩, accepted⟩ := both
          obtain ⟨after, parsed⟩ := (parseLine_returns_iff (known middle before) line).mpr accepted
          exact ⟨after, by rw [before, except_bind_ok, List.foldlM_cons, parsed]; rfl⟩

end Files

section Texts

theorem readRecord_fields {line : Text} {record : Record} (read : readRecord line = .ok (some record)) :
    record.fields = finditer 0 (Text.rstrip line ++ [',']) := by
  unfold readRecord at read
  simp only at read
  split at read
  · cases read
  · split at read
    · obtain ⟨_, _, read⟩ := except_bind_eq_ok.mp read
      obtain ⟨_, _, read⟩ := except_bind_eq_ok.mp read
      obtain ⟨_, _, read⟩ := except_bind_eq_ok.mp read
      cases read
      rfl
    · cases read

theorem oneLine_notice {line : Text} (oneLine : (Text.rstrip line).OneLine) {notice : Notice} (found : notice? line = some notice)
    {text : Text} (said : notice.text = some text) : text.OneLine := by
  obtain ⟨record, read, rfl⟩ := Option.map_eq_some_iff.mp found
  have fields : readRecord line = .ok (some record) := by
    cases done : readRecord line with
    | error error => simp [done, Except.toOption] at read
    | ok record? => simpa [done, Except.toOption] using read
  unfold Record.notice at said
  simp only at said
  split at said
  · obtain ⟨field, at3, rfl⟩ := Option.map_eq_some_iff.mp said
    have member := List.mem_of_getElem? at3
    rw [readRecord_fields fields] at member
    exact oneLine_finditer (oneLine.append (by decide)) member
  · cases said

end Texts

section Names

/-- A text whose first line does not start like a list, and is not blank. -/
def Fronted (name : Text) : Prop := ∃ front text, name = front ++ text ∧ front.OneLine ∧
  (∃ first ∈ front.head?, first ≠ ',' ∧ first ≠ '[') ∧ ∃ last ∈ front.getLast?, Text.isBlank last = false

/-- What the line has of a name that is cut by a line break. -/
def cutName (name : Text) : Text := Text.rstrip ((Text.readlines (name ++ ['\n'])).headD [])

/-- The lines that follow the line breaks of a name. -/
def restLines (name : Text) : List Text := (Text.readlines (name ++ ['\n'])).tail

theorem readlines_fronted {name : Text} (fronted : Fronted name) {label : Text} (oneLine : label.OneLine) :
    ∃ first, Text.readlines (label ++ name ++ ['\n']) = first :: restLines name ∧
      Text.rstrip first = label ++ cutName name ∧ Printable (cutName name) := by
  obtain ⟨front, text, rfl, front1, starts, ends⟩ := fronted
  obtain ⟨first, more, read⟩ := Text.readlines_ended text
  have whole : Text.readlines (front ++ text ++ ['\n']) = (front ++ first) :: more := by
    rw [List.append_assoc]
    exact Text.readlines_front front1 read
  have labelled : Text.readlines (label ++ (front ++ text) ++ ['\n']) = (label ++ (front ++ first)) :: more := by
    rw [List.append_assoc]
    exact Text.readlines_front oneLine whole
  have cut : cutName (front ++ text) = front ++ Text.rstrip first := by
    rw [cutName, whole, List.headD_cons, Text.rstrip_front ends]
  have tail : restLines (front ++ text) = more := by rw [restLines, whole, List.tail_cons]
  refine ⟨label ++ (front ++ first), by rw [labelled, tail], ?_, ?_, ?_, ?_⟩
  · rw [cut, ← List.append_assoc, Text.rstrip_front (getLast_append ends), List.append_assoc]
  · rw [cut]
    exact front1.append (Text.oneLine_rstrip (by rw [read]; simp))
  · rw [cut]
    exact head_append starts
  · rw [cut]
    by_cases empty : Text.rstrip first = []
    · rw [empty, List.append_nil]
      exact ends
    · exact getLast_append (Text.rstrip_ends empty)

theorem oneLine_restLines {name line : Text} (member : line ∈ restLines name) : (Text.rstrip line).OneLine :=
  Text.oneLine_rstrip (List.mem_of_mem_tail member)

theorem cutName_printable {name : Text} (printable : Printable name) : cutName name = name ∧ restLines name = [] := by
  obtain ⟨last, closes, inked⟩ := printable.ends
  have ends : ∀ char ∈ name.getLast?, Text.isBlank char = false := by
    intro char member
    obtain rfl : last = char := Option.mem_unique closes member
    exact inked
  rw [cutName, restLines, Text.readlines_line printable.oneLine]
  exact ⟨Text.rstrip_line ends, rfl⟩

end Names

section Shown

/-- A line of a file: one that is written in one piece, or what follows a line break in a name. -/
inductive LogLine (Entry : Type) where
  | whole (entry : Entry)
  | rest (text : Text)

variable {Entry : Type}

def LogLine.notice? (notice : Entry → Notice) : LogLine Entry → Option Notice
  | .whole entry => some (notice entry)
  | .rest text => Frrp.notice? text

def LogLine.Accepted (accepted : List Notice → Entry → Prop) (float? : Text → Option ℚ) (before : List Notice) :
    LogLine Entry → Prop
  | .whole entry => accepted before entry
  | .rest text => Acceptable float? before text

/-- The text of a line, where `reads` says which record an entry is read as. -/
inductive Shows (reads : Entry → Record → Prop) : Text → LogLine Entry → Prop
  | whole {text : Text} {entry : Entry} {record : Record} (read : readRecord text = .ok (some record))
      (meant : reads entry record) : Shows reads text (.whole entry)
  | rest (text : Text) : Shows reads text (.rest text)

variable {reads : Entry → Record → Prop} {notice : Entry → Notice} {accepted : List Notice → Entry → Prop}
  {float? : Text → Option ℚ} {texts : List Text} {lines : List (LogLine Entry)}

theorem Shows.notice? (notices : ∀ entry record, reads entry record → record.notice = notice entry) {text : Text}
    {line : LogLine Entry} (shows : Shows reads text line) : Frrp.notice? text = line.notice? notice := by
  cases shows with
  | whole read meant => simp [Frrp.notice?, LogLine.notice?, read, Except.toOption, notices _ _ meant]
  | rest => rfl

theorem Shows.acceptable {before : List Notice}
    (accepts : ∀ entry record, reads entry record → (record.Accepted float? before ↔ accepted before entry)) {text : Text}
    {line : LogLine Entry} (shows : Shows reads text line) :
    Acceptable float? before text ↔ line.Accepted accepted float? before := by
  cases shows with
  | whole read meant => simp [Acceptable, LogLine.Accepted, read, accepts _ _ meant]
  | rest => exact Iff.rfl

theorem notices_eq (notices : ∀ entry record, reads entry record → record.notice = notice entry)
    (shown : List.Forall₂ (Shows reads) texts lines) :
    texts.filterMap Frrp.notice? = lines.filterMap (LogLine.notice? notice) := by
  induction shown with
  | nil => rfl
  | cons first _ ih => rw [List.filterMap_cons, List.filterMap_cons, first.notice? notices, ih]

/-- A file is parsed exactly if its lines are accepted, whatever the text is that shows them. -/
theorem parse_shown (shown : List.Forall₂ (Shows reads) texts lines)
    (notices : ∀ entry record, reads entry record → record.notice = notice entry)
    (accepts : ∀ before entry record, reads entry record → (record.Accepted float? before ↔ accepted before entry)) :
    (∀ rebuilt, texts.foldlM (parseLine float?) ⟨0, .empty⟩ = .ok rebuilt →
      Knows rebuilt (lines.filterMap (LogLine.notice? notice))) ∧
    ((∃ rebuilt, texts.foldlM (parseLine float?) ⟨0, .empty⟩ = .ok rebuilt) ↔
      Chronicle (fun before line => line.Accepted accepted float? (before.filterMap (LogLine.notice? notice))) lines) := by
  obtain ⟨knows, returns⟩ := @parse_returns_iff float? texts
  constructor
  · rw [← notices_eq notices shown]
    exact knows
  · rw [returns]
    refine chronicle_iff_of_forall₂ shown fun before others text line front now => ?_
    rw [notices_eq notices front]
    exact now.acceptable (accepts _)

theorem parse_shown_runs (shown : List.Forall₂ (Shows reads) texts lines)
    (notices : ∀ entry record, reads entry record → record.notice = notice entry)
    (accepts : ∀ before entry record, reads entry record → (record.Accepted float? before ↔ accepted before entry)) :
    (∀ runs, (texts.foldlM (parseLine float?) ⟨0, .empty⟩).map Rebuilt.runs = .ok runs →
      ∃ rebuilt : Rebuilt, rebuilt.runs = runs ∧ Knows rebuilt (lines.filterMap (LogLine.notice? notice))) ∧
    ((∃ runs, (texts.foldlM (parseLine float?) ⟨0, .empty⟩).map Rebuilt.runs = .ok runs) ↔
      Chronicle (fun before line => line.Accepted accepted float? (before.filterMap (LogLine.notice? notice))) lines) := by
  obtain ⟨knows, returns⟩ := parse_shown shown notices accepts
  constructor
  · intro runs parsed
    obtain ⟨rebuilt, folded, same⟩ := except_map_eq_ok.mp parsed
    exact ⟨rebuilt, same, knows rebuilt folded⟩
  · refine Iff.trans ⟨fun parses => ?_, fun parses => ?_⟩ returns
    · obtain ⟨runs, parsed⟩ := parses
      obtain ⟨rebuilt, folded, _⟩ := except_map_eq_ok.mp parsed
      exact ⟨rebuilt, folded⟩
    · obtain ⟨rebuilt, folded⟩ := parses
      exact ⟨rebuilt.runs, except_map_eq_ok.mpr ⟨rebuilt, folded, rfl⟩⟩

theorem shown_entries {cut : Entry → List (LogLine Entry)} {line : Nat → Entry → Text} {entries : List Entry}
    (each : ∀ index, ∀ entry ∈ entries,
      List.Forall₂ (Shows reads) (Text.readlines (line index entry ++ ['\n'])) (cut entry)) :
    List.Forall₂ (Shows reads) ((entries.mapIdx line).flatMap fun text => Text.readlines (text ++ ['\n']))
      (entries.flatMap cut) := by
  induction entries using List.reverseRecOn with
  | nil => exact .nil
  | append_singleton earlier entry ih =>
      rw [List.mapIdx_concat, List.flatMap_append, List.flatMap_append, List.flatMap_singleton, List.flatMap_singleton]
      refine List.rel_append (ih fun index other member => each index other (by simp [member])) (each _ entry (by simp))

end Shown

end ActiveBgp.Frrp

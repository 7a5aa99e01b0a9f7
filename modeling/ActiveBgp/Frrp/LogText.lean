import ActiveBgp.Frrp.Attribution
import ActiveBgp.Frrp.LogRecords

namespace ActiveBgp.Frrp

open ActiveBgp.Python ActiveBgp.Data

/-! # The text of the logs of `frrp.py`

Lists are printed without brackets and an empty set as nothing.  The parser finds no
field where there is nothing, and splits a list without brackets into its characters.
So it stops at every path that it has to read.
-/

section Text

variable (rttText : ℚ → Text) (order : Finset Asn → List Asn)

/-- The lines with a path; `code` is 0 or 2. -/
def pathLine (code : Int) (src : Asn) (measurementId : Int) (poisons : Finset Asn) (path : List Asn) (rtts : List ℚ) :
    Text :=
  Text.ofInt code ++ "|src,".toList ++ Text.ofInt src ++ ",atlas,".toList ++ Text.ofInt measurementId ++
    ",poisons,".toList ++ "-".toList.intercalate ((order poisons).map Text.ofInt) ++
    ",path,".toList ++ "-".toList.intercalate (path.map Text.ofInt) ++
    ",rtts,".toList ++ "-".toList.intercalate (rtts.map rttText)

/-- The text that is given to `write_frrp_entry`. -/
def FrrpEntry.line : FrrpEntry → Text
  | .error src msg => "-1|src,".toList ++ Text.ofInt src ++ ",msg,".toList ++ msg
  | .finalGraph src graphPath => "1|src,".toList ++ Text.ofInt src ++ ",graph_path,".toList ++ graphPath
  | .result src atlas poisons path rtts => pathLine rttText order 0 src atlas poisons path rtts
  | .lostConnectivity src atlas poisons path rtts => pathLine rttText order 2 src atlas poisons path rtts
  | .invalidResult src => "-2|src,".toList ++ Text.ofInt src ++ ",msg,first_path_not_connected".toList

end Text

def frrpHeader : List Text :=
  ["# Entry formats".toList,
    "# Error:              -1|src,asn,msg,err_msg".toList,
    "# Final Graph:         1|src,asn,graph_path,measured_graph_file".toList,
    "# FRRP Result:         0|src,asn,atlas,m_id,oisons,poison_set,path,as-path,rtts,as-rtts".toList,
    "# Lost Connectivity:   2|src,asn,atlas,m_id,poisons,poison_set,path,as-path,rtts,as-rtts".toList,
    "# Invalid Result      -2|src,asn,msg,first_path_not_connected".toList]

/-- The file that `write_frrp_entry` appends its lines to. -/
def frrpLogFile (rttText : ℚ → Text) (order : SetOrder Asn) (entries : List FrrpEntry) : Text :=
  (frrpHeader ++ entries.mapIdx fun index entry => entry.line rttText (order.items index)).flatMap fun line => line ++ ['\n']

def frrpLog (states : List SourceState) : List FrrpEntry := states.flatMap fun state => state.run.frrpLog

namespace FrrpEntry

def src : FrrpEntry → Asn
  | .error src _ => src
  | .finalGraph src _ => src
  | .result src _ _ _ _ => src
  | .lostConnectivity src _ _ _ _ => src
  | .invalidResult src => src

def code : FrrpEntry → Int
  | .error _ _ => -1
  | .finalGraph _ _ => 1
  | .result _ _ _ _ _ => 0
  | .lostConnectivity _ _ _ _ _ => 2
  | .invalidResult _ => -2

def isResult : FrrpEntry → Bool
  | .result _ _ _ _ _ => true
  | _ => false

end FrrpEntry

section Lines

variable {rttText : ℚ → Text} {order : Finset Asn → List Asn} {float? : Text → Option ℚ} {src measurementId : Int}
  {poisons : Finset Asn} {path : List Asn} {rtts : List ℚ} {entry : FrrpEntry} {run : FRRPRun}

/-- What a line with a path says after the source. -/
def pathTail (rttText : ℚ → Text) (order : Finset Asn → List Asn) (measurementId : Int) (poisons : Finset Asn)
    (path : List Asn) (rtts : List ℚ) : Text :=
  "atlas".toList ++ ',' :: (Text.ofInt measurementId ++ ',' :: ("poisons".toList ++ ',' ::
    ("-".toList.intercalate ((order poisons).map Text.ofInt) ++ ',' :: ("path".toList ++ ',' ::
      ("-".toList.intercalate (path.map Text.ofInt) ++ ',' :: ("rtts".toList ++ ',' ::
        "-".toList.intercalate (rtts.map rttText)))))))

theorem pathLine_eq (code : Int) : pathLine rttText order code src measurementId poisons path rtts =
    entryLine code src (pathTail rttText order measurementId poisons path rtts) := by
  simp [pathLine, entryLine, pathTail]

/-- What a line says after the source. -/
def FrrpEntry.tail (rttText : ℚ → Text) (order : Finset Asn → List Asn) : FrrpEntry → Text
  | .error _ msg => "msg".toList ++ ',' :: msg
  | .finalGraph _ graphPath => "graph_path".toList ++ ',' :: graphPath
  | .result _ atlas poisons path rtts => pathTail rttText order atlas poisons path rtts
  | .lostConnectivity _ atlas poisons path rtts => pathTail rttText order atlas poisons path rtts
  | .invalidResult _ => "msg,first_path_not_connected".toList

theorem line_eq (entry : FrrpEntry) :
    entry.line rttText order = entryLine entry.code entry.src (entry.tail rttText order) := by
  cases entry with
  | error src msg => exact errorLine_eq src msg
  | finalGraph src graphPath => exact finalGraphLine_eq src graphPath
  | result src atlas poisons path rtts => exact pathLine_eq 0
  | lostConnectivity src atlas poisons path rtts => exact pathLine_eq 2
  | invalidResult src =>
      have code : "-2|src,".toList = Text.ofInt (-2) ++ '|' :: ("src".toList ++ [',']) := by decide
      have label : ",msg,first_path_not_connected".toList = ',' :: "msg,first_path_not_connected".toList := by decide
      change "-2|src,".toList ++ Text.ofInt src ++ ",msg,first_path_not_connected".toList =
        entryLine (-2) src "msg,first_path_not_connected".toList
      simp only [entryLine, code, label, List.append_assoc, List.cons_append, List.nil_append]

/-- Round-trip times are printed as numbers. -/
def PrintsNumbers (rttText : ℚ → Text) : Prop := ∀ rtt, rttText rtt ≠ [] ∧ Text.Numeric (rttText rtt)

theorem numeric_asns (asns : List Asn) : Text.Numeric ("-".toList.intercalate (asns.map Text.ofInt)) := by
  refine Text.numeric_intercalate (by decide) fun text member => ?_
  obtain ⟨asn, _, rfl⟩ := List.mem_map.mp member
  exact Text.numeric_ofInt asn

/-- Nothing is printed for an empty list, and then there is no field. -/
theorem finditer_numeric {text : Text} (numeric : Text.Numeric text) (rest : Text) :
    finditer 0 (text ++ ',' :: rest) = (if text = [] then [] else [.text text]) ++ finditer 0 rest := by
  split
  · rename_i empty
    rw [empty]
    exact finditer_comma
  · rename_i nonempty
    have flat := flat_numeric nonempty numeric
    exact finditer_text flat.1 flat.2.1 flat.2.2

theorem splitHop_char (float? : Text → Option ℚ) (char : Char) (hop : Asn × ℚ) : splitHop float? [char] ≠ .ok hop := by
  intro read
  by_cases hyphen : char = '-'
  · subst hyphen
    have split : List.splitOn '-' ['-'] = [[], []] := by decide
    have empty : parseAsn [] = .error (.valueError "invalid literal for int() with base 10".toList) := by decide
    simp only [splitHop, split, empty, except_bind_error, reduceCtorEq] at read
  · have split : List.splitOn '-' [char] = [[char]] := List.splitOn_eq_singleton (by simpa using Ne.symm hyphen)
    simp only [splitHop, split] at read
    cases read

section Paths

variable (numbers : PrintsNumbers rttText)

include numbers

theorem numeric_rtts (rtts : List ℚ) : Text.Numeric ("-".toList.intercalate (rtts.map rttText)) := by
  refine Text.numeric_intercalate (by decide) fun text member => ?_
  obtain ⟨rtt, _, rfl⟩ := List.mem_map.mp member
  exact (numbers rtt).2

theorem inked_pathLine (code : Int) : (pathLine rttText order code src measurementId poisons path rtts).Inked :=
  ((((((((((Text.inked_ofInt code).append (by decide)).append (Text.inked_ofInt src)).append (by decide)).append
    (Text.inked_ofInt measurementId)).append (by decide)).append (numeric_asns _).inked).append (by decide)).append
      (numeric_asns _).inked).append (by decide)).append (numeric_rtts numbers _).inked

theorem not_pathFields (float? : Text → Option ℚ) (code source : Field) : ¬ PathFields float?
    (code :: source :: finditer 0 (pathTail rttText order measurementId poisons path rtts ++ [','])) := by
  intro fields
  obtain ⟨field, at9, items, listed, each⟩ := fields.rttPath
  have atlas := flat_ofInt measurementId
  have times := numeric_rtts numbers rtts
  simp only [pathTail, List.append_assoc, List.cons_append] at at9
  rw [finditer_text (by decide) (by decide) (by decide), finditer_text atlas.1 atlas.2.1 atlas.2.2,
    finditer_text (by decide) (by decide) (by decide), finditer_numeric (numeric_asns _),
    finditer_text (by decide) (by decide) (by decide), finditer_numeric (numeric_asns _),
    finditer_text (by decide) (by decide) (by decide), finditer_numeric times] at at9
  generalize "-".toList.intercalate (rtts.map rttText) = printed at at9
  have last : field = .text printed ∧ printed ≠ [] := by
    revert at9
    split_ifs <;> simp_all [finditer]
  obtain ⟨rfl, nonempty⟩ := last
  cases listed
  obtain ⟨char, rest, rfl⟩ := List.exists_cons_of_ne_nil nonempty
  obtain ⟨hop, read⟩ := each [char] (by simp)
  exact splitHop_char float? char hop read

end Paths

/-- The texts that the other lines print. -/
def FrrpEntry.Clean : FrrpEntry → Prop
  | .error _ msg => Printable msg
  | .finalGraph _ graphPath => Printable graphPath
  | _ => True

theorem oneLine_line (numbers : PrintsNumbers rttText) (clean : entry.Clean) : (entry.line rttText order).OneLine := by
  have label : Text.OneLine ",msg,".toList := by decide
  have graph : Text.OneLine ",graph_path,".toList := by decide
  have invalid : Text.OneLine ",msg,first_path_not_connected".toList := by decide
  cases entry with
  | error src msg => exact ((oneLine_numbered (by decide) src).append label).append clean.oneLine
  | finalGraph src graphPath => exact ((oneLine_numbered (by decide) src).append graph).append clean.oneLine
  | result src atlas poisons path rtts => exact (inked_pathLine numbers 0).oneLine
  | lostConnectivity src atlas poisons path rtts => exact (inked_pathLine numbers 2).oneLine
  | invalidResult src => exact (oneLine_numbered (by decide) src).append invalid

theorem line_ends (numbers : PrintsNumbers rttText) (order : Finset Asn → List Asn) (clean : entry.Clean) :
    ∀ char ∈ (entry.line rttText order).getLast?, Text.isBlank char = false := by
  have fixed : ∃ last ∈ ",msg,first_path_not_connected".toList.getLast?, Text.isBlank last = false :=
    ⟨'d', by decide, by decide⟩
  cases entry with
  | error src msg => exact notBlank_append clean.ends
  | finalGraph src graphPath => exact notBlank_append clean.ends
  | result src atlas poisons path rtts => exact (inked_pathLine numbers 0).ends
  | lostConnectivity src atlas poisons path rtts => exact (inked_pathLine numbers 2).ends
  | invalidResult src => exact notBlank_append fixed

namespace FrrpEntry

/-- The parser reads a text up to its comma. -/
def notice : FrrpEntry → Notice
  | .error src msg => ⟨src, -1, some (beforeComma msg)⟩
  | .finalGraph src graphPath => ⟨src, 1, some (beforeComma graphPath)⟩
  | .result src _ _ _ _ => ⟨src, 0, none⟩
  | .lostConnectivity src _ _ _ _ => ⟨src, 2, none⟩
  | .invalidResult src => ⟨src, -2, none⟩

def record (rttText : ℚ → Text) (order : Finset Asn → List Asn) (entry : FrrpEntry) : Record :=
  ⟨entry.src, entry.code, .text (Text.ofInt entry.code ++ "|src".toList) :: .text (Text.ofInt entry.src) ::
    finditer 0 (entry.tail rttText order ++ [','])⟩

/-- A line break in the name of a graph cuts its line. -/
def cut : FrrpEntry → FrrpEntry
  | .finalGraph src graphPath => .finalGraph src (cutName graphPath)
  | entry => entry

/-- The texts of the lines that follow. -/
def rest : FrrpEntry → List Text
  | .finalGraph _ graphPath => restLines graphPath
  | _ => []

/-- The lines of the file for an entry. -/
def lines (entry : FrrpEntry) : List (LogLine FrrpEntry) := .whole entry.cut :: entry.rest.map .rest

/-- The parser reads no path; of a lost one it needs none if its source has no earlier line. -/
def AcceptedAfter (before : List Notice) : FrrpEntry → Prop
  | .result _ _ _ _ _ => False
  | .lostConnectivity src _ _ _ _ => aboutSource src before = []
  | _ => True

/-- An entry that is written in one line is read as this record. -/
def Reads (rttText : ℚ → Text) (entry : FrrpEntry) (record : Record) : Prop :=
  entry.Clean ∧ ∃ order, record = entry.record rttText order

end FrrpEntry

theorem record_notice (clean : entry.Clean) : (entry.record rttText order).notice = entry.notice := by
  have msg : "msg".toList ≠ [] ∧ ',' ∉ "msg".toList ∧ "msg".toList.head? ≠ some '[' := by decide
  have graph : "graph_path".toList ≠ [] ∧ ',' ∉ "graph_path".toList ∧ "graph_path".toList.head? ≠ some '[' := by decide
  cases entry with
  | error src text =>
      have field := fields_text msg clean (.text (Text.ofInt (-1) ++ "|src".toList)) (.text (Text.ofInt src))
      exact congrArg (fun field => Notice.mk src (-1) (field.map Field.str)) field
  | finalGraph src text =>
      have field := fields_text graph clean (.text (Text.ofInt 1 ++ "|src".toList)) (.text (Text.ofInt src))
      exact congrArg (fun field => Notice.mk src 1 (field.map Field.str)) field
  | result src atlas poisons path rtts => rfl
  | lostConnectivity src atlas poisons path rtts => rfl
  | invalidResult src => rfl

theorem record_accepted (float? : Text → Option ℚ) (numbers : PrintsNumbers rttText) (clean : entry.Clean)
    (before : List Notice) : (entry.record rttText order).Accepted float? before ↔ entry.AcceptedAfter before := by
  cases entry with
  | invalidResult src => exact iff_of_true (Record.accepted_other (show (-2 : Int) ∉ _ by decide)) trivial
  | error src msg =>
      refine iff_of_true ((Record.accepted_error rfl).mpr fun _ => ?_) trivial
      exact congrArg Option.isSome (fields_text (by decide) clean _ _)
  | finalGraph src graphPath =>
      refine iff_of_true ((Record.accepted_finalGraph rfl).mpr fun _ => ?_) trivial
      exact congrArg Option.isSome (fields_text (by decide) clean _ _)
  | result src atlas poisons path rtts =>
      exact (Record.accepted_result rfl).trans (iff_false_intro (not_pathFields numbers float? _ _))
  | lostConnectivity src atlas poisons path rtts =>
      refine (Record.accepted_lostConnectivity rfl).trans ⟨fun needed => ?_, fun first earlier => absurd first earlier⟩
      exact by_contra fun earlier => not_pathFields numbers float? _ _ (needed earlier)

end Lines

section Logs

variable {rttText : ℚ → Text} {float? : Text → Option ℚ} {entries : List FrrpEntry} {entry : FrrpEntry}

def logLines (log : List FrrpEntry) : List (LogLine FrrpEntry) := log.flatMap FrrpEntry.lines

def logNotices (lines : List (LogLine FrrpEntry)) : List Notice := lines.filterMap (LogLine.notice? FrrpEntry.notice)

/-- What is said by the lines that follow a line break in the name of a graph. -/
def restNotices (log : List FrrpEntry) : List Notice := (log.flatMap FrrpEntry.rest).filterMap notice?

theorem mem_logNotices {log : List FrrpEntry} {notice : Notice} : notice ∈ logNotices (logLines log) ↔
    (∃ entry ∈ log, entry.cut.notice = notice) ∨ notice ∈ restNotices log := by
  induction log with
  | nil => simp [logNotices, logLines, restNotices]
  | cons entry rest ih =>
      have first : notice ∈ logNotices entry.lines ↔
          entry.cut.notice = notice ∨ notice ∈ entry.rest.filterMap notice? := by
        simp [logNotices, FrrpEntry.lines, LogLine.notice?, eq_comm]
      have split : logNotices (logLines (entry :: rest)) = logNotices entry.lines ++ logNotices (logLines rest) := by
        simp [logNotices, logLines]
      have more : restNotices (entry :: rest) = entry.rest.filterMap notice? ++ restNotices rest := by simp [restNotices]
      rw [split, more, List.mem_append, List.mem_append, first, ih, List.exists_mem_cons_iff]
      exact or_or_or_comm

/-- What the parser needs of a line of the file depends on the lines before it. -/
def AcceptedAfter (float? : Text → Option ℚ) (before : List (LogLine FrrpEntry)) (line : LogLine FrrpEntry) : Prop :=
  line.Accepted FrrpEntry.AcceptedAfter float? (logNotices before)

theorem comments_frrpHeader : ∀ line ∈ frrpHeader, Comment line := by
  simp only [frrpHeader, List.forall_mem_cons]
  refine ⟨comment_ofList ?_, comment_ofList ?_, comment_ofList ?_, comment_ofList ?_, comment_ofList ?_,
    comment_ofList ?_, nofun⟩ <;> decide +kernel

theorem shown_clean (numbers : PrintsNumbers rttText) (order : Finset Asn → List Asn) (clean : entry.Clean) :
    List.Forall₂ (Shows (FrrpEntry.Reads rttText)) (Text.readlines (entry.line rttText order ++ ['\n'])) [.whole entry] := by
  rw [Text.readlines_line (oneLine_line numbers clean)]
  have stripped : Text.rstrip (entry.line rttText order ++ ['\n']) =
      entryLine entry.code entry.src (entry.tail rttText order) := by
    rw [Text.rstrip_line (line_ends numbers order clean), line_eq]
  exact .cons (.whole (readRecord_entryLine stripped) ⟨clean, order, rfl⟩) .nil

/-- The lines of the file for a graph, whatever its name is after its start. -/
theorem shown_finalGraph (rttText : ℚ → Text) (order : Finset Asn → List Asn) (src : Asn) {graphPath : Text}
    (fronted : Fronted graphPath) : List.Forall₂ (Shows (FrrpEntry.Reads rttText))
      (Text.readlines (FrrpEntry.line rttText order (.finalGraph src graphPath) ++ ['\n']))
      (FrrpEntry.lines (.finalGraph src graphPath)) := by
  have label : Text.OneLine ("1|src,".toList ++ Text.ofInt src ++ ",graph_path,".toList) :=
    (oneLine_numbered (by decide) src).append (by decide)
  obtain ⟨first, read, stripped, printable⟩ := readlines_fronted fronted label
  have lines : Text.readlines (FrrpEntry.line rttText order (.finalGraph src graphPath) ++ ['\n']) =
      first :: restLines graphPath := read
  rw [lines]
  refine .cons (.whole (readRecord_entryLine (stripped.trans (finalGraphLine_eq src _))) ⟨printable, order, rfl⟩) ?_
  exact List.forall₂_map_right_iff.mpr (List.forall₂_same.mpr fun text _ => .rest text)

/-- The parser gets through a file exactly if it accepts each of its lines. -/
theorem parseFile_frrpLogFile (float? : Text → Option ℚ) (numbers : PrintsNumbers rttText) (order : SetOrder Asn)
    (shown : ∀ order, ∀ entry ∈ entries, List.Forall₂ (Shows (FrrpEntry.Reads rttText))
      (Text.readlines (entry.line rttText order ++ ['\n'])) entry.lines) :
    (∀ runs, parseFile float? (frrpLogFile rttText order entries) = .ok runs →
      ∃ rebuilt : Rebuilt, rebuilt.runs = runs ∧ Knows rebuilt (logNotices (logLines entries))) ∧
    ((∃ runs, parseFile float? (frrpLogFile rttText order entries) = .ok runs) ↔
      Chronicle (AcceptedAfter float?) (logLines entries)) := by
  have notices (entry : FrrpEntry) (record : Record) (reads : entry.Reads rttText record) : record.notice = entry.notice := by
    obtain ⟨clean, _, rfl⟩ := reads
    exact record_notice clean
  have accepts (before : List Notice) (entry : FrrpEntry) (record : Record) (reads : entry.Reads rttText record) :
      record.Accepted float? before ↔ entry.AcceptedAfter before := by
    obtain ⟨clean, _, rfl⟩ := reads
    exact record_accepted float? numbers clean before
  rw [frrpLogFile, parseFile_eq comments_frrpHeader]
  exact parse_shown_runs (shown_entries fun index => shown (order.items index)) notices accepts

end Logs

end ActiveBgp.Frrp

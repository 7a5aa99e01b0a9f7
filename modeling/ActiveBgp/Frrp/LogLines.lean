import ActiveBgp.Frrp.LogParser

namespace ActiveBgp.Frrp

open ActiveBgp.Python

variable {float? : Text → Option ℚ} {run : FRRPRun}

/-- A text that starts a field and ends a line. -/
structure Printable (text : Text) : Prop where
  oneLine : text.OneLine
  starts : ∃ first ∈ text.head?, first ≠ ',' ∧ first ≠ '['
  ends : ∃ last ∈ text.getLast?, Text.isBlank last = false

/-- What the parser reads of a text. -/
def beforeComma (text : Text) : Text := text.takeWhile (· ≠ ',')

theorem beforeComma_eq_self {text : Text} : beforeComma text = text ↔ ',' ∉ text := by
  rw [beforeComma, List.takeWhile_eq_self_iff]
  simp only [ne_eq, decide_not, Bool.not_eq_eq_eq_not, Bool.not_true, decide_eq_false_iff_not]
  exact ⟨fun each member => each ',' member rfl, fun free char member same => free (same ▸ member)⟩

theorem beforeComma_comma {text : Text} (free : ',' ∉ text) (rest : Text) : beforeComma (text ++ ',' :: rest) = text := by
  have before : ∀ char ∈ text, decide (char ≠ ',') = true := by
    intro char member
    simpa using ne_of_mem_of_not_mem member free
  rw [beforeComma, List.takeWhile_append_of_pos before]
  simp

theorem beforeComma_snoc (text : Text) : beforeComma (text ++ [',']) = beforeComma text := by
  induction text with
  | nil => rfl
  | cons char rest ih =>
      unfold beforeComma at ih ⊢
      rw [List.cons_append, List.takeWhile_cons, List.takeWhile_cons, ih]

theorem finditer_printable {label text : Text} (labelled : label ≠ [] ∧ ',' ∉ label ∧ label.head? ≠ some '[')
    (printable : Printable text) :
    ∃ rest, finditer 0 (label ++ ',' :: text ++ [',']) = .text label :: .text (beforeComma text) :: rest := by
  obtain ⟨first, head, notComma, notBracket⟩ := printable.starts
  obtain ⟨others, rfl⟩ : ∃ others, text = first :: others := by
    cases text with
    | nil => simp at head
    | cons char others => exact ⟨others, by simpa [eq_comm] using head⟩
  have comma : ',' ∈ others ++ [','] := by simp
  obtain ⟨before, after, split, free⟩ := List.eq_append_cons_of_mem comma
  have value : ',' ∉ first :: before := by simpa [free] using Ne.symm notComma
  have whole : label ++ ',' :: (first :: others) ++ [','] = label ++ ',' :: ((first :: before) ++ ',' :: after) := by
    simp [split]
  have read : beforeComma (first :: others) = first :: before := by
    rw [← beforeComma_snoc, List.cons_append, split, ← List.cons_append, beforeComma_comma value]
  refine ⟨finditer 0 after, ?_⟩
  rw [read, whole, finditer_text labelled.1 labelled.2.1 labelled.2.2,
    finditer_text (by simp) value (by simpa using notBracket)]

/-- The fields of a text start with the label and the text up to its comma. -/
theorem fields_text {label text : Text} (labelled : label ≠ [] ∧ ',' ∉ label ∧ label.head? ≠ some '[')
    (printable : Printable text) (code source : Field) :
    (code :: source :: finditer 0 (label ++ ',' :: text ++ [',']))[3]? = some (.text (beforeComma text)) := by
  obtain ⟨rest, fields⟩ := finditer_printable labelled printable
  rw [fields]
  rfl

theorem flat_numeric {text : Text} (nonempty : text ≠ []) (numeric : Text.Numeric text) :
    text ≠ [] ∧ ',' ∉ text ∧ text.head? ≠ some '[' :=
  ⟨nonempty, numeric.not_mem (by decide), fun first => numeric.not_mem (by decide) (List.mem_of_mem_head? first)⟩

theorem flat_ofInt (value : Int) : Text.ofInt value ≠ [] ∧ ',' ∉ Text.ofInt value ∧ (Text.ofInt value).head? ≠ some '[' :=
  flat_numeric (Text.ofInt_ne_nil value) (Text.numeric_ofInt value)

section OneLine

theorem oneLine_ofInt (value : Int) : (Text.ofInt value).OneLine :=
  ⟨(Text.numeric_ofInt value).not_mem (by decide), (Text.numeric_ofInt value).not_mem (by decide)⟩

theorem oneLine_numbered {front : Text} (oneLine : front.OneLine) (number : Int) : (front ++ Text.ofInt number).OneLine :=
  oneLine.append (oneLine_ofInt number)

theorem oneLine_intercalate {separator : Char} {items : List Text} (numeric : ∀ item ∈ items, Text.Numeric item)
    (plain : separator ≠ '\n' ∧ separator ≠ '\r') : Text.OneLine ([separator].intercalate items) :=
  ⟨Text.not_mem_intercalate (fun item member => (numeric item member).not_mem (by decide)) plain.1.symm,
    Text.not_mem_intercalate (fun item member => (numeric item member).not_mem (by decide)) plain.2.symm⟩

theorem printable_message {msg : Text} (known : msg ∈ ["no_stable_probe".toList, "atlas_source_traceroute_error".toList,
    "atlas_source_empty_response".toList]) : Printable msg := by
  rw [List.mem_cons, List.mem_cons, List.mem_singleton] at known
  rcases known with rfl | rfl | rfl
  · exact ⟨by decide, ⟨'n', rfl, by decide⟩, ⟨'e', by decide, by decide⟩⟩
  · exact ⟨by decide, ⟨'a', rfl, by decide⟩, ⟨'r', by decide, by decide⟩⟩
  · exact ⟨by decide, ⟨'a', rfl, by decide⟩, ⟨'e', by decide, by decide⟩⟩

theorem head_append {good : Char → Prop} {text more : Text} (starts : ∃ first ∈ text.head?, good first) :
    ∃ first ∈ (text ++ more).head?, good first := by
  obtain ⟨first, opens, plain⟩ := starts
  exact ⟨first, by simp [Option.mem_def.mp opens], plain⟩

theorem getLast_append {good : Char → Prop} {text more : Text} (ends : ∃ last ∈ more.getLast?, good last) :
    ∃ last ∈ (text ++ more).getLast?, good last := by
  obtain ⟨last, closes, inked⟩ := ends
  exact ⟨last, by simp [Option.mem_def.mp closes], inked⟩

/-- What ends with something that is not blank loses nothing at its end. -/
theorem notBlank_append {text more : Text} (ends : ∃ last ∈ more.getLast?, Text.isBlank last = false) :
    ∀ char ∈ (text ++ more).getLast?, Text.isBlank char = false := by
  obtain ⟨last, closes, inked⟩ := getLast_append ends
  intro char member
  obtain rfl : last = char := Option.mem_unique closes member
  exact inked

end OneLine

section Entries

variable {src : Asn} {text : Text}

theorem errorLine_eq (src : Asn) (msg : Text) : "-1|src,".toList ++ Text.ofInt src ++ ",msg,".toList ++ msg =
    entryLine (-1) src ("msg".toList ++ ',' :: msg) := by
  have code : "-1|src,".toList = Text.ofInt (-1) ++ '|' :: ("src".toList ++ [',']) := by decide
  have label : ",msg,".toList = ',' :: ("msg".toList ++ [',']) := by decide
  simp only [entryLine, code, label, List.append_assoc, List.cons_append, List.nil_append]

theorem finalGraphLine_eq (src : Asn) (graphPath : Text) :
    "1|src,".toList ++ Text.ofInt src ++ ",graph_path,".toList ++ graphPath =
      entryLine 1 src ("graph_path".toList ++ ',' :: graphPath) := by
  have code : "1|src,".toList = Text.ofInt 1 ++ '|' :: ("src".toList ++ [',']) := by decide
  have label : ",graph_path,".toList = ',' :: ("graph_path".toList ++ [',']) := by decide
  simp only [entryLine, code, label, List.append_assoc, List.cons_append, List.nil_append]

/-- A line without a path leaves the paths of its run as they are. -/
structure SamePaths (run after : FRRPRun) : Prop where
  original : after.originalPath = run.originalPath
  discovered : after.discoveredPaths = run.discoveredPaths
  lost : after.lostConnectivityPaths = run.lostConnectivityPaths

theorem SamePaths.recordedPaths {after : FRRPRun} (same : SamePaths run after) : after.recordedPaths = run.recordedPaths := by
  rw [FRRPRun.recordedPaths, same.original, same.discovered]
  rfl

theorem updateRun_error (float? : Text → Option ℚ) (run : FRRPRun) (printable : Printable text) (count : Nat) (preexisting : Bool)
    (code source : Field) :
    ∃ after, updateRun float? count preexisting run (-1)
        (code :: source :: finditer 0 ("msg".toList ++ ',' :: text ++ [','])) = .ok after ∧ SamePaths run after ∧
      after = if run.initialLostConnectivityFailure then run.addError (beforeComma text) else run := by
  have labelled : "msg".toList ≠ [] ∧ ',' ∉ "msg".toList ∧ "msg".toList.head? ≠ some '[' := by decide
  obtain ⟨rest, fields⟩ := finditer_printable labelled printable
  rw [fields]
  unfold updateRun
  rw [if_pos rfl]
  cases failed : run.initialLostConnectivityFailure with
  | false => exact ⟨run, rfl, ⟨rfl, rfl, rfl⟩, rfl⟩
  | true => exact ⟨run.addError (beforeComma text), rfl, ⟨rfl, rfl, rfl⟩, rfl⟩

theorem updateRun_finalGraph (float? : Text → Option ℚ) (run : FRRPRun) (printable : Printable text) (count : Nat) (preexisting : Bool)
    (code source : Field) :
    ∃ after, updateRun float? count preexisting run 1
        (code :: source :: finditer 0 ("graph_path".toList ++ ',' :: text ++ [','])) = .ok after ∧
      SamePaths run after ∧ after = if run.initialLostConnectivityFailure then run
        else { run with finalGraphPath := some (beforeComma text) } := by
  have labelled : "graph_path".toList ≠ [] ∧ ',' ∉ "graph_path".toList ∧ "graph_path".toList.head? ≠ some '[' := by
    decide
  obtain ⟨rest, fields⟩ := finditer_printable labelled printable
  rw [fields]
  unfold updateRun
  rw [if_neg (by decide), if_pos rfl]
  cases failed : run.initialLostConnectivityFailure with
  | true => exact ⟨run, rfl, ⟨rfl, rfl, rfl⟩, rfl⟩
  | false =>
      exact ⟨{ run with finalGraphPath := some (beforeComma text), initialLostConnectivityFailure := false }, rfl,
        ⟨rfl, rfl, rfl⟩, rfl⟩

end Entries

section Comments

def Comment (line : Text) : Prop :=
  line.OneLine ∧ line.head? = some '#' ∧ line.getLast?.all (fun char => !Text.isBlank char) = true

instance (line : Text) : Decidable (Comment line) := by unfold Comment; infer_instance

/-- The characters of a literal are at hand, while decoding it takes the kernel long. -/
theorem comment_ofList {chars : List Char} (comment : Comment chars) : Comment (String.ofList chars).toList := by
  rwa [String.toList_ofList]

theorem parseLine_comment {rebuilt : Rebuilt} {line : Text} (comment : Comment line) :
    parseLine float? rebuilt (line ++ ['\n']) = .ok rebuilt := by
  obtain ⟨_, starts, last⟩ := comment
  have ends : ∀ char ∈ line.getLast?, Text.isBlank char = false := by
    intro char member
    rw [Option.mem_def.mp member] at last
    simpa using last
  unfold parseLine
  simp only [Text.rstrip_line ends, starts, if_true]
  rfl

theorem parse_comments {header : List Text} (comments : ∀ line ∈ header, Comment line) (rebuilt : Rebuilt) :
    (header.map fun line => line ++ ['\n']).foldlM (parseLine float?) rebuilt = .ok rebuilt := by
  induction header with
  | nil => rfl
  | cons line rest ih =>
      obtain ⟨comment, later⟩ := List.forall_mem_cons.mp comments
      rw [List.map_cons, List.foldlM_cons, parseLine_comment comment, except_bind_ok, ih later]

/-- A file that starts with comments is parsed line by line after them. -/
theorem parseFile_eq {header : List Text} (comments : ∀ line ∈ header, Comment line) (entries : List Text) :
    parseFile float? ((header ++ entries).flatMap fun line => line ++ ['\n']) =
      ((entries.flatMap fun line => Text.readlines (line ++ ['\n'])).foldlM (parseLine float?) ⟨0, .empty⟩).map
        Rebuilt.runs := by
  have first : (header.flatMap fun line => Text.readlines (line ++ ['\n'])) = header.map fun line => line ++ ['\n'] := by
    rw [← Text.readlines_flatMap]
    exact Text.readlines_lines fun line member => (comments line member).1
  unfold parseFile
  rw [Text.readlines_flatMap, List.flatMap_append, first, List.foldlM_append, parse_comments comments, except_bind_ok]
  rfl

theorem parseFile_lines {Entry : Type} {header : List Text} {entries : List Entry} {line : Nat → Entry → Text}
    (comments : ∀ line ∈ header, Comment line)
    (oneLine : ∀ index, ∀ entry ∈ entries, (line index entry).OneLine) :
    parseFile float? ((header ++ entries.mapIdx line).flatMap fun line => line ++ ['\n']) =
      ((entries.mapIdx fun index entry => line index entry ++ ['\n']).foldlM (parseLine float?) ⟨0, .empty⟩).map
        Rebuilt.runs := by
  have lines : ((entries.mapIdx line).flatMap fun line => Text.readlines (line ++ ['\n'])) =
      (entries.mapIdx line).map fun line => line ++ ['\n'] := by
    rw [← Text.readlines_flatMap]
    refine Text.readlines_lines fun text member => ?_
    obtain ⟨index, bound, rfl⟩ := List.mem_mapIdx.mp member
    exact oneLine index _ (List.getElem_mem bound)
  have ended : (entries.mapIdx line).map (fun line => line ++ ['\n']) =
      entries.mapIdx fun index entry => line index entry ++ ['\n'] := by
    rw [List.mapIdx_eq_zipIdx_map, List.mapIdx_eq_zipIdx_map, List.map_map]
    rfl
  rw [parseFile_eq comments, lines, ended]

end Comments

section Whole

/-- How a float without a fractional part is printed. -/
def wholeText (rtt : ℚ) : Text := Text.ofInt rtt.floor ++ ".0".toList

def wholeFloat? (text : Text) : Option ℚ :=
  match text.splitOn '.' with
  | [whole, _] => (Text.toInt? whole).map fun whole : Int => (whole : ℚ)
  | _ => none

theorem wholeText_natCast (whole : Nat) : wholeText whole = Text.ofNat whole ++ '.' :: ['0'] := by
  have floor : (whole : ℚ).floor = whole := Rat.floor_intCast whole
  rw [wholeText, floor]
  rfl

theorem wholeFloat?_wholeText (whole : Nat) : wholeFloat? (wholeText whole) = some (whole : ℚ) := by
  have free : '.' ∉ Text.ofNat whole := Text.not_mem_ofInt (show Text.OutsideInt '.' by decide) whole
  simp only [wholeFloat?, wholeText_natCast, Text.splitOn_pair free (show '.' ∉ ['0'] by decide), Text.toInt?_ofNat,
    Option.map_some, Int.cast_natCast]

theorem numeric_wholeText (rtt : ℚ) : wholeText rtt ≠ [] ∧ Text.Numeric (wholeText rtt) := by
  refine ⟨by simp [wholeText, Text.ofInt_ne_nil], fun char member => ?_⟩
  rcases List.mem_append.mp member with whole | fraction
  · exact Text.numeric_ofInt _ char whole
  · have zero : Text.Numeric ".0".toList := by decide
    exact zero char fraction

end Whole

end ActiveBgp.Frrp

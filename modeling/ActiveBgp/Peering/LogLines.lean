import ActiveBgp.Peering.Measurements
import ActiveBgp.Frrp.LogLines

namespace ActiveBgp.Peering

open ActiveBgp.Python
open ActiveBgp.Frrp (Asn AnnotatedASPath FRRPRun PathContent Field Rebuilt Printable SamePaths finditer finditer_text
  finditer_list entryLine errorLine_eq finalGraphLine_eq flat_ofInt mapM_map_ok notBlank_append oneLine_intercalate
  oneLine_numbered oneLine_ofInt parseAsn parseLine parseLine_entryLine parseValidEntry parseValidEntry_fields splitHop updateRun
  updateRun_error updateRun_finalGraph)

namespace FrrpEntry

def src : FrrpEntry → Asn
  | .error src _ => src
  | .finalGraph src _ => src
  | .result src _ _ _ _ => src
  | .lostConnectivity src _ _ _ _ => src
  | .noMorePoisons src => src

def code : FrrpEntry → Int
  | .error _ _ => -1
  | .finalGraph _ _ => 1
  | .result _ _ _ _ _ => 0
  | .lostConnectivity _ _ _ _ _ => 2
  | .noMorePoisons _ => 3

/-- The path of a line with the code 0 and no poisons. -/
def original : FrrpEntry → Option PathContent
  | .result _ atlas poisons path rtts => if poisons = ∅ then some ⟨path, rtts.map Prod.snd, ∅, some atlas⟩ else none
  | _ => none

/-- The path of a line with the code 0 and poisons. -/
def discovered : FrrpEntry → Option PathContent
  | .result _ atlas poisons path rtts => if poisons = ∅ then none else some ⟨path, rtts.map Prod.snd, poisons, some atlas⟩
  | _ => none

/-- The path of a line with the code 2. -/
def lost : FrrpEntry → Option PathContent
  | .lostConnectivity _ atlas poisons path rtts => some ⟨path, rtts.map Prod.snd, poisons, some atlas⟩
  | _ => none

end FrrpEntry

/-- The paths that a log gives a source. -/
structure LoggedPaths where
  original : Option PathContent
  discovered : List PathContent
  lost : List PathContent

def loggedPaths (run : FRRPRun) : LoggedPaths :=
  ⟨run.originalPath.map AnnotatedASPath.content, run.discoveredPaths.map AnnotatedASPath.content,
    run.lostConnectivityPaths.map AnnotatedASPath.content⟩

/-- A further line of the source; what is lost on its first line is left out. -/
def LoggedPaths.add (preexisting : Bool) (paths : LoggedPaths) (entry : FrrpEntry) : LoggedPaths where
  original := entry.original.or paths.original
  discovered := paths.discovered ++ entry.discovered.toList
  lost := if preexisting then paths.lost ++ entry.lost.toList else paths.lost

variable {floats : Floats}

/-- A path whose ASes are numbers, with a time for each that is printed without a sign. -/
structure CleanPath (floats : Floats) (path : List Asn) (rtts : List (Asn × ℚ)) : Prop where
  timed : rtts.map Prod.fst = path
  numbers : ∀ hop ∈ rtts, 0 ≤ hop.1
  isFloat : ∀ hop ∈ rtts, floats.isFloat hop.2
  unsigned : ∀ hop ∈ rtts, '-' ∉ floats.str hop.2

/-- What is printed on the line can be read back. -/
def FrrpEntry.Clean (floats : Floats) : FrrpEntry → Prop
  | .error _ msg => Printable msg
  | .finalGraph _ graphPath => Printable graphPath
  | .result _ _ _ path rtts => CleanPath floats path rtts ∧ path ≠ []
  | .lostConnectivity _ _ _ path rtts => CleanPath floats path rtts
  | .noMorePoisons _ => True

/-- What is written on the line is one line of text, with a float for every AS of a path. -/
def FrrpEntry.Legible (floats : Floats) : FrrpEntry → Prop
  | .error _ msg => Printable msg
  | .finalGraph _ graphPath => Printable graphPath
  | .result _ _ _ path rtts => rtts.map Prod.fst = path ∧ ∀ hop ∈ rtts, floats.isFloat hop.2
  | .lostConnectivity _ _ _ path rtts => rtts.map Prod.fst = path ∧ ∀ hop ∈ rtts, floats.isFloat hop.2
  | .noMorePoisons _ => True

theorem FrrpEntry.Clean.legible {entry : FrrpEntry} (clean : entry.Clean floats) : entry.Legible floats := by
  cases entry with
  | error src msg => exact clean
  | finalGraph src graphPath => exact clean
  | result src atlas poisons path rtts => exact ⟨clean.1.timed, clean.1.isFloat⟩
  | lostConnectivity src atlas poisons path rtts => exact ⟨clean.timed, clean.isFloat⟩
  | noMorePoisons src => trivial

section Texts

theorem Floats.numeric_str (floats : Floats) {rtt : ℚ} (isFloat : floats.isFloat rtt) : Text.Numeric (floats.str rtt) := by
  intro char member
  refine (floats.str_chars rtt isFloat char member).imp id fun sign => ?_
  simp only [List.mem_cons] at sign ⊢
  tauto

theorem numeric_kvString {hop : Asn × ℚ} (isFloat : floats.isFloat hop.2) :
    Text.Numeric (Text.ofInt hop.1 ++ '-' :: floats.str hop.2) := by
  intro char member
  rcases List.mem_append.mp member with asn | later
  · exact Text.numeric_ofInt _ char asn
  rcases List.mem_cons.mp later with rfl | time
  · exact .inr (by simp)
  · exact floats.numeric_str isFloat char time

theorem finditer_numbers {items : List Text} (numeric : ∀ item ∈ items, item ≠ [] ∧ Text.Numeric item) (rest : Text) :
    finditer 0 ('[' :: ",".toList.intercalate items ++ ']' :: ',' :: rest) = Field.ofItems items :: finditer 0 rest :=
  finditer_list fun item member =>
    ⟨(numeric item member).1, (numeric item member).2.not_mem (by decide), (numeric item member).2.not_mem (by decide),
      (numeric item member).2.not_mem (by decide)⟩

theorem numeric_asns (asns : List Asn) : ∀ item ∈ asns.map Text.ofInt, item ≠ [] ∧ Text.Numeric item := by
  intro item member
  obtain ⟨asn, _, rfl⟩ := List.mem_map.mp member
  exact ⟨Text.ofInt_ne_nil asn, Text.numeric_ofInt asn⟩

theorem numeric_getKvString {rtts : List (Asn × ℚ)} (isFloat : ∀ hop ∈ rtts, floats.isFloat hop.2) :
    ∀ item ∈ getKvString floats rtts, item ≠ [] ∧ Text.Numeric item := by
  intro item member
  obtain ⟨hop, inside, rfl⟩ := List.mem_map.mp member
  exact ⟨by simp, numeric_kvString (isFloat hop inside)⟩

theorem splitHop_kvString {hop : Asn × ℚ} (nonneg : 0 ≤ hop.1) (isFloat : floats.isFloat hop.2)
    (unsigned : '-' ∉ floats.str hop.2) :
    splitHop floats.float? (Text.ofInt hop.1 ++ '-' :: floats.str hop.2) = .ok hop := by
  have split := Text.splitOn_pair (Text.not_mem_ofInt_of_nonneg nonneg) unsigned
  simp only [splitHop, split, parseAsn, Text.toInt?_ofInt, floats.float?_str _ isFloat, orRaise]
  rfl

end Texts

section Fields

variable {order : Finset Asn → List Asn} {src measurementId : Int} {poisons : Finset Asn} {path : List Asn}
  {rtts : List (Asn × ℚ)}

/-- What a line with a path says after the source. -/
def pathTail (floats : Floats) (order : Finset Asn → List Asn) (measurementId : Int) (poisons : Finset Asn)
    (path : List Asn) (rtts : List (Asn × ℚ)) : Text :=
  "atlas".toList ++ ',' :: (Text.ofInt measurementId ++ ',' :: ("poisons".toList ++ ',' ::
    ('[' :: ",".toList.intercalate ((order poisons).map Text.ofInt) ++ ']' :: ',' :: ("path".toList ++ ',' ::
      ('[' :: ",".toList.intercalate (path.map Text.ofInt) ++ ']' :: ',' :: ("rtts".toList ++ ',' ::
        ('[' :: ",".toList.intercalate (getKvString floats rtts) ++ [']'])))))))

theorem pathLine_eq (code : Int) : pathLine floats order code src measurementId poisons path rtts =
    entryLine code src (pathTail floats order measurementId poisons path rtts) := by
  simp [pathLine, entryLine, pathTail]

theorem finditer_pathTail (isFloat : ∀ hop ∈ rtts, floats.isFloat hop.2) :
    finditer 0 (pathTail floats order measurementId poisons path rtts ++ [',']) =
      [.text "atlas".toList, .text (Text.ofInt measurementId), .text "poisons".toList,
        .ofItems ((order poisons).map Text.ofInt), .text "path".toList, .ofItems (path.map Text.ofInt),
        .text "rtts".toList, .ofItems (getKvString floats rtts)] := by
  have atlas := flat_ofInt measurementId
  have ended (items : List Text) : '[' :: ",".toList.intercalate items ++ [']'] ++ [','] =
      '[' :: ",".toList.intercalate items ++ ']' :: ',' :: [] := by simp
  simp only [pathTail, List.append_assoc, List.cons_append]
  rw [finditer_text (by decide) (by decide) (by decide), finditer_text atlas.1 atlas.2.1 atlas.2.2,
    finditer_text (by decide) (by decide) (by decide), ← List.cons_append, finditer_numbers (numeric_asns _),
    finditer_text (by decide) (by decide) (by decide), ← List.cons_append, finditer_numbers (numeric_asns _),
    finditer_text (by decide) (by decide) (by decide)]
  have last := finditer_numbers (numeric_getKvString isFloat) []
  rw [← ended] at last
  simpa [finditer] using last

theorem ofItems_list {items : List Text} (nonempty : items ≠ []) : Field.ofItems items = .list items := if_neg nonempty

/-- The parser fills an object with the path, and puts it where it belongs. -/
theorem parseValidEntry_path (clean : CleanPath floats path rtts) (nonempty : path ≠ [])
    (listed : (order poisons).toFinset = poisons) (identity : Nat) (run : FRRPRun) (code source : Field) (lost : Bool) :
    ∃ annotated : AnnotatedASPath, annotated.identity = identity ∧
      annotated.content = ⟨path, rtts.map Prod.snd, poisons, some measurementId⟩ ∧
      parseValidEntry floats.float? identity run
        (code :: source :: finditer 0 (pathTail floats order measurementId poisons path rtts ++ [','])) lost =
          .ok (run.place lost (decide (poisons = ∅)) annotated) := by
  refine ⟨.parsed identity (order poisons) measurementId rtts, (AnnotatedASPath.parsed_spec _ _ _ _).1, ?_, ?_⟩
  · rw [(AnnotatedASPath.parsed_spec _ _ _ _).2, clean.timed, listed]
  have timesNonempty : getKvString floats rtts ≠ [] := by
    have hops : rtts ≠ [] := fun empty => nonempty (by rw [← clean.timed, empty]; rfl)
    simpa [getKvString] using hops
  have pathNonempty : path.map Text.ofInt ≠ [] := by simpa using nonempty
  have hops : (getKvString floats rtts).mapM (splitHop floats.float?) = .ok rtts :=
    mapM_map_ok fun hop member => splitHop_kvString (clean.numbers hop member) (clean.isFloat hop member)
      (clean.unsigned hop member)
  have numbers : ((order poisons).map Text.ofInt).mapM parseAsn = .ok (order poisons) :=
    mapM_map_ok fun asn _ => by simp only [parseAsn, Text.toInt?_ofInt]
  have field : (poisons = ∅ ∧ Field.ofItems ((order poisons).map Text.ofInt) = .none ∧ order poisons = []) ∨
      (poisons ≠ ∅ ∧ Field.ofItems ((order poisons).map Text.ofInt) = .list ((order poisons).map Text.ofInt)) := by
    by_cases none : order poisons = []
    · refine .inl ⟨?_, by rw [none]; rfl, none⟩
      rw [← listed, none]
      rfl
    · refine .inr ⟨fun empty => none ?_, ofItems_list (by simpa using none)⟩
      rw [← List.toFinset_eq_empty_iff, listed, empty]
  rw [finditer_pathTail clean.isFloat, ofItems_list timesNonempty, ofItems_list pathNonempty]
  rcases field with ⟨empty, none, unordered⟩ | ⟨some, list⟩
  · rw [none, unordered, decide_eq_true empty]
    exact parseValidEntry_fields identity lost rfl rfl rfl rfl hops (.inl ⟨rfl, rfl⟩)
  · rw [list, decide_eq_false some]
    exact parseValidEntry_fields identity lost rfl rfl rfl rfl hops (.inr ⟨_, rfl, numbers⟩)

end Fields

section Lines

variable {order : Finset Asn → List Asn} {entry : FrrpEntry} {run : FRRPRun}

/-- What a line says after the source. -/
def FrrpEntry.tail (floats : Floats) (order : Finset Asn → List Asn) : FrrpEntry → Text
  | .error _ msg => "msg".toList ++ ',' :: msg
  | .finalGraph _ graphPath => "graph_path".toList ++ ',' :: graphPath
  | .result _ atlas poisons path rtts => pathTail floats order atlas poisons path rtts
  | .lostConnectivity _ atlas poisons path rtts => pathTail floats order atlas poisons path rtts
  | .noMorePoisons _ => "msg,no_more_poisons".toList

theorem line_eq (entry : FrrpEntry) :
    entry.line floats order = entryLine entry.code entry.src (entry.tail floats order) := by
  cases entry with
  | error src msg => exact errorLine_eq src msg
  | finalGraph src graphPath => exact finalGraphLine_eq src graphPath
  | result src atlas poisons path rtts => exact pathLine_eq 0
  | lostConnectivity src atlas poisons path rtts => exact pathLine_eq 2
  | noMorePoisons src =>
      have code : "3|src,".toList = Text.ofInt 3 ++ '|' :: ("src".toList ++ [',']) := by decide
      have label : ",msg,no_more_poisons".toList = ',' :: "msg,no_more_poisons".toList := by decide
      change "3|src,".toList ++ Text.ofInt src ++ ",msg,no_more_poisons".toList =
        entryLine 3 src "msg,no_more_poisons".toList
      simp only [entryLine, code, label, List.append_assoc, List.cons_append, List.nil_append]

/-- The objects of a run are older than the count. -/
def Fresh (count : Nat) (run : FRRPRun) : Prop := ∀ path ∈ run.recordedPaths, path.identity < count

theorem fresh_of_recordedPaths {count : Nat} (fresh : Fresh count run) {after : FRRPRun}
    (same : after.recordedPaths = run.recordedPaths) : Fresh (count + 1) after := by
  intro path member
  rw [same] at member
  exact Nat.lt_succ_of_lt (fresh path member)

theorem loggedPaths_place {count : Nat} (fresh : Fresh count run) {annotated : AnnotatedASPath}
    (new : annotated.identity = count) (lost original : Bool) :
    loggedPaths (run.place lost original annotated) = (
      if lost then { loggedPaths run with lost := (loggedPaths run).lost ++ [annotated.content] }
      else if original then { loggedPaths run with original := some annotated.content }
      else { loggedPaths run with discovered := (loggedPaths run).discovered ++ [annotated.content] }) ∧
    Fresh (count + 1) (run.place lost original annotated) := by
  have older : ∀ path ∈ run.recordedPaths, path.identity < count + 1 := fun path member =>
    Nat.lt_succ_of_lt (fresh path member)
  have now : annotated.identity < count + 1 := by omega
  cases lost with
  | true => exact ⟨by simp [FRRPRun.place, loggedPaths, FRRPRun.addLostConnectivityPath], fresh_of_recordedPaths fresh rfl⟩
  | false =>
  cases original with
  | true =>
      refine ⟨rfl, fun path member => ?_⟩
      rcases List.mem_append.mp member with first | later
      · obtain rfl : path = annotated := by simpa [FRRPRun.place] using first
        exact now
      · exact older path (List.mem_append_right _ later)
  | false =>
      have later : ∀ other ∈ run.recordedPaths, other.identity < annotated.identity := by
        rw [new]
        exact fresh
      have unique : run.isUniquePath annotated = true := by
        simpa [FRRPRun.isUniquePath] using fun other member => (later other member).ne
      refine ⟨by simp [FRRPRun.place, loggedPaths, FRRPRun.addDiscoveredPath, unique], fun path member => ?_⟩
      have recorded := FRRPRun.recordedPaths_addDiscoveredPath later
      simp only [FRRPRun.place, Bool.false_eq_true, if_false, recorded, List.mem_append, List.mem_singleton] at member
      rcases member with old | rfl
      · exact older path old
      · exact now

theorem updateRun_entry {count : Nat} (clean : entry.Clean floats) (listed : ∀ poisons, (order poisons).toFinset = poisons)
    (fresh : Fresh count run) {preexisting : Bool}
    (resolved : preexisting = true → ∀ lost ∈ entry.lost, lost.ases ≠ []) (code source : Field) :
    ∃ after, updateRun floats.float? count preexisting run entry.code
        (code :: source :: finditer 0 (entry.tail floats order ++ [','])) = .ok after ∧
      loggedPaths after = (loggedPaths run).add preexisting entry ∧ Fresh (count + 1) after := by
  have quiet {after : FRRPRun} (same : SamePaths run after) (original : entry.original = none)
      (discovered : entry.discovered = none) (lost : entry.lost = none) :
      loggedPaths after = (loggedPaths run).add preexisting entry ∧ Fresh (count + 1) after := by
    refine ⟨?_, fresh_of_recordedPaths fresh same.recordedPaths⟩
    rw [loggedPaths, same.original, same.discovered, same.lost]
    cases preexisting <;> simp [loggedPaths, LoggedPaths.add, original, discovered, lost]
  cases entry with
  | noMorePoisons src => exact ⟨run, rfl, quiet ⟨rfl, rfl, rfl⟩ rfl rfl rfl⟩
  | error src msg =>
      obtain ⟨after, done, same, _⟩ := updateRun_error floats.float? run clean count preexisting code source
      exact ⟨after, done, quiet same rfl rfl rfl⟩
  | finalGraph src graphPath =>
      obtain ⟨after, done, same, _⟩ :=
        updateRun_finalGraph floats.float? run clean count preexisting code source
      exact ⟨after, done, quiet same rfl rfl rfl⟩
  | result src atlas poisons path rtts =>
      obtain ⟨path, nonempty⟩ := clean
      obtain ⟨annotated, new, content, parsed⟩ :=
        parseValidEntry_path path nonempty (listed poisons) count run code source false
      obtain ⟨paths, later⟩ := loggedPaths_place fresh new false (decide (poisons = ∅))
      refine ⟨_, parsed, paths.trans ?_, later⟩
      rw [content]
      by_cases empty : poisons = ∅
      · cases preexisting <;> simp [LoggedPaths.add, FrrpEntry.original, FrrpEntry.discovered, FrrpEntry.lost, empty]
      · cases preexisting <;> simp [LoggedPaths.add, FrrpEntry.original, FrrpEntry.discovered, FrrpEntry.lost, empty]
  | lostConnectivity src atlas poisons path rtts =>
      cases preexisting with
      | false =>
          refine ⟨{ run with initialLostConnectivityFailure := true }, rfl, ?_, fresh_of_recordedPaths fresh rfl⟩
          simp [LoggedPaths.add, FrrpEntry.original, FrrpEntry.discovered, loggedPaths]
      | true =>
          have nonempty : path ≠ [] := resolved rfl _ rfl
          obtain ⟨annotated, new, content, parsed⟩ :=
            parseValidEntry_path clean nonempty (listed poisons) count run code source true
          obtain ⟨paths, later⟩ := loggedPaths_place fresh new true (decide (poisons = ∅))
          refine ⟨_, parsed, paths.trans ?_, later⟩
          rw [content]
          simp [LoggedPaths.add, FrrpEntry.original, FrrpEntry.discovered, FrrpEntry.lost]

theorem oneLine_pathLine {src measurementId : Int} {poisons : Finset Asn} {path : List Asn} {rtts : List (Asn × ℚ)}
    (code : Int) (isFloat : ∀ hop ∈ rtts, floats.isFloat hop.2) :
    (pathLine floats order code src measurementId poisons path rtts).OneLine := by
  unfold pathLine
  have asns (asns : List Asn) : Text.OneLine (",".toList.intercalate (asns.map Text.ofInt)) :=
    oneLine_intercalate (fun item member => (numeric_asns asns item member).2) (by decide)
  have times : Text.OneLine (",".toList.intercalate (getKvString floats rtts)) :=
    oneLine_intercalate (fun item member => (numeric_getKvString isFloat item member).2) (by decide)
  exact ((((((((((oneLine_ofInt code).append (by decide)).append (oneLine_ofInt src)).append (by decide)).append
    (oneLine_ofInt measurementId)).append (by decide)).append (asns _)).append (by decide)).append (asns _)).append
      (by decide)).append times |>.append (by decide)

theorem oneLine_line (legible : entry.Legible floats) : (entry.line floats order).OneLine := by
  have label : Text.OneLine ",msg,".toList := by decide
  have graph : Text.OneLine ",graph_path,".toList := by decide
  have fixed : Text.OneLine ",msg,no_more_poisons".toList := by decide
  cases entry with
  | error src msg => exact ((oneLine_numbered (by decide) src).append label).append legible.oneLine
  | finalGraph src graphPath => exact ((oneLine_numbered (by decide) src).append graph).append legible.oneLine
  | result src atlas poisons path rtts => exact oneLine_pathLine 0 legible.2
  | lostConnectivity src atlas poisons path rtts => exact oneLine_pathLine 2 legible.2
  | noMorePoisons src => exact (oneLine_numbered (by decide) src).append fixed

theorem line_ends (order : Finset Asn → List Asn) (legible : entry.Legible floats) :
    ∀ char ∈ (entry.line floats order).getLast?, Text.isBlank char = false := by
  have bracket : ∃ last ∈ "]".toList.getLast?, Text.isBlank last = false := ⟨']', rfl, by decide⟩
  have fixed : ∃ last ∈ ",msg,no_more_poisons".toList.getLast?, Text.isBlank last = false := ⟨'s', by decide, by decide⟩
  cases entry with
  | error src msg => exact notBlank_append legible.ends
  | finalGraph src graphPath => exact notBlank_append legible.ends
  | result src atlas poisons path rtts => exact notBlank_append bracket
  | lostConnectivity src atlas poisons path rtts => exact notBlank_append bracket
  | noMorePoisons src => exact notBlank_append fixed

theorem parseLine_entry {rebuilt : Rebuilt} (clean : entry.Clean floats)
    (listed : ∀ poisons, (order poisons).toFinset = poisons) (fresh : Fresh rebuilt.lines (rebuilt.run entry.src))
    (resolved : (rebuilt.runs.get? entry.src).isSome = true → ∀ lost ∈ entry.lost, lost.ases ≠ []) :
    ∃ after, parseLine floats.float? rebuilt (entry.line floats order ++ ['\n']) =
        .ok ⟨rebuilt.lines + 1, rebuilt.runs.set entry.src after⟩ ∧
      loggedPaths after = (loggedPaths (rebuilt.run entry.src)).add (rebuilt.runs.get? entry.src).isSome entry ∧
      Fresh (rebuilt.lines + 1) after := by
  have ends := line_ends order clean.legible
  rw [line_eq] at ends
  obtain ⟨after, updated, paths, later⟩ := updateRun_entry clean listed fresh resolved
    (.text (Text.ofInt entry.code ++ "|src".toList)) (.text (Text.ofInt entry.src))
  exact ⟨after, by rw [line_eq, parseLine_entryLine rebuilt ends, updated]; rfl, paths, later⟩

end Lines

end ActiveBgp.Peering

import ActiveBgp.Frrp.LogRecords
import ActiveBgp.Peering.RoundTrip

namespace ActiveBgp.Peering

open ActiveBgp.Python ActiveBgp.Data
open ActiveBgp.Frrp (Asn FRRPRun Field Fronted LogLine Notice PathFields Rebuilt Record Shows beforeComma cutName
  cutName_printable entryLine fields_text finditer finalGraphLine_eq oneLine_numbered parseAsn parseFile parseFile_eq
  parseValidEntry parseValidEntry_ok parse_shown_runs printable_message readRecord_entryLine readlines_fronted restLines
  shown_entries splitHop)

/-! # Which logs are parsed

A line with a path is parsed only if the path has an AS, and every AS and its time
are printed without a sign.  The first line of a source is not parsed if its
connectivity was lost.  If the name of the experiment has line breaks, so has the
name of every graph, and what follows them are lines of their own.
-/

variable {floats : Floats}

/-- The path is not empty, and there is one hyphen in each of its items. -/
structure Parsable (floats : Floats) (path : List Asn) (rtts : List (Asn × ℚ)) : Prop where
  nonempty : path ≠ []
  numbers : ∀ hop ∈ rtts, 0 ≤ hop.1
  unsigned : ∀ hop ∈ rtts, '-' ∉ floats.str hop.2

/-- What the parser needs of a line; `preexisting` says that its source has an earlier line. -/
def FrrpEntry.Accepted (floats : Floats) (preexisting : Prop) : FrrpEntry → Prop
  | .result _ _ _ path rtts => Parsable floats path rtts
  | .lostConnectivity _ _ _ path rtts => preexisting → Parsable floats path rtts
  | _ => True

section Paths

theorem splitHop_signed {first second : Text} (free : '-' ∉ first) (also : '-' ∉ second) (rest : Text) (hop : Asn × ℚ) :
    splitHop floats.float? (first ++ '-' :: (second ++ '-' :: rest)) ≠ .ok hop := by
  obtain ⟨third, more, parts⟩ := List.exists_cons_of_ne_nil (List.splitOn_ne_nil '-' rest)
  have split : (first ++ '-' :: (second ++ '-' :: rest)).splitOn '-' = first :: second :: third :: more := by
    rw [List.splitOn_append_cons_self_of_not_mem free, List.splitOn_append_cons_self_of_not_mem also, parts]
  simp only [splitHop, split]
  intro read
  cases read

theorem splitHop_returns_iff {hop : Asn × ℚ} (isFloat : floats.isFloat hop.2) :
    (∃ read, splitHop floats.float? (Text.ofInt hop.1 ++ '-' :: floats.str hop.2) = .ok read) ↔
      0 ≤ hop.1 ∧ '-' ∉ floats.str hop.2 := by
  constructor
  · intro returns
    obtain ⟨read, done⟩ := returns
    by_contra signed
    by_cases nonneg : 0 ≤ hop.1
    · have inside : '-' ∈ floats.str hop.2 := by simpa [nonneg] using signed
      obtain ⟨before, after, split, free⟩ := List.eq_append_cons_of_mem inside
      rw [split] at done
      exact splitHop_signed (Text.not_mem_ofInt_of_nonneg nonneg) free after read done
    · obtain ⟨number, negative⟩ : ∃ number : Nat, Text.ofInt hop.1 = '-' :: Text.ofNat number := by
        cases value : hop.1 with
        | ofNat number => simp [value] at nonneg
        | negSucc number => exact ⟨number + 1, rfl⟩
      have free : '-' ∉ Text.ofNat number := Text.not_mem_ofInt_of_nonneg (Int.natCast_nonneg number)
      rw [negative] at done
      exact splitHop_signed (List.not_mem_nil) free (floats.str hop.2) read done
  · intro both
    exact ⟨hop, splitHop_kvString both.1 isFloat both.2⟩

theorem parseValidEntry_returns_iff {order : Finset Asn → List Asn} {measurementId : Int} {poisons : Finset Asn}
    {path : List Asn} {rtts : List (Asn × ℚ)} (timed : rtts.map Prod.fst = path)
    (isFloat : ∀ hop ∈ rtts, floats.isFloat hop.2) (listed : (order poisons).toFinset = poisons) (identity : Nat)
    (run : FRRPRun) (code source : Field) (lost : Bool) :
    (∃ after, parseValidEntry floats.float? identity run
      (code :: source :: finditer 0 (pathTail floats order measurementId poisons path rtts ++ [','])) lost = .ok after) ↔
      Parsable floats path rtts := by
  constructor
  · intro returns
    obtain ⟨after, parsed⟩ := returns
    rw [finditer_pathTail isFloat] at parsed
    obtain ⟨rttPath, field, items, listedHops, each⟩ := (parseValidEntry_ok parsed).1.rttPath
    cases field
    have times : getKvString floats rtts ≠ [] := by
      intro empty
      rw [Field.ofItems, if_pos empty] at listedHops
      cases listedHops
    rw [ofItems_list times] at listedHops
    cases listedHops
    have both (hop : Asn × ℚ) (member : hop ∈ rtts) : 0 ≤ hop.1 ∧ '-' ∉ floats.str hop.2 :=
      (splitHop_returns_iff (isFloat hop member)).mp (each _ (List.mem_map.mpr ⟨hop, member, rfl⟩))
    refine ⟨?_, fun hop member => (both hop member).1, fun hop member => (both hop member).2⟩
    rw [← timed]
    simpa [getKvString] using times
  · intro parsable
    have clean : CleanPath floats path rtts := ⟨timed, parsable.numbers, isFloat, parsable.unsigned⟩
    obtain ⟨annotated, _, _, parsed⟩ :=
      @parseValidEntry_path _ _ measurementId _ _ _ clean parsable.nonempty listed identity run code source lost
    exact ⟨_, parsed⟩

end Paths

section Lines

variable {order : Finset Asn → List Asn} {entry : FrrpEntry}

namespace FrrpEntry

/-- The parser reads a text up to its comma. -/
def notice : FrrpEntry → Notice
  | .error src msg => ⟨src, -1, some (beforeComma msg)⟩
  | .finalGraph src graphPath => ⟨src, 1, some (beforeComma graphPath)⟩
  | .result src _ _ _ _ => ⟨src, 0, none⟩
  | .lostConnectivity src _ _ _ _ => ⟨src, 2, none⟩
  | .noMorePoisons src => ⟨src, 3, none⟩

def record (floats : Floats) (order : Finset Asn → List Asn) (entry : FrrpEntry) : Record :=
  ⟨entry.src, entry.code, .text (Text.ofInt entry.code ++ "|src".toList) :: .text (Text.ofInt entry.src) ::
    finditer 0 (entry.tail floats order ++ [','])⟩

/-- A line break in the name of a graph cuts its line. -/
def cut : FrrpEntry → FrrpEntry
  | .finalGraph src graphPath => .finalGraph src (cutName graphPath)
  | entry => entry

/-- The texts of the lines that follow. -/
def rest : FrrpEntry → List Text
  | .finalGraph _ graphPath => restLines graphPath
  | _ => []

/-- The lines of the file for an entry. -/
def lines (entry : FrrpEntry) : List (LogLine FrrpEntry) := .whole entry.cut :: entry.rest.map .rest

/-- What the parser needs of an entry after these lines. -/
def AcceptedAfter (floats : Floats) (before : List Notice) (entry : FrrpEntry) : Prop :=
  entry.Accepted floats (Frrp.aboutSource entry.src before ≠ [])

end FrrpEntry

theorem record_notice (legible : entry.Legible floats) : (entry.record floats order).notice = entry.notice := by
  have msg : "msg".toList ≠ [] ∧ ',' ∉ "msg".toList ∧ "msg".toList.head? ≠ some '[' := by decide
  have graph : "graph_path".toList ≠ [] ∧ ',' ∉ "graph_path".toList ∧ "graph_path".toList.head? ≠ some '[' := by decide
  cases entry with
  | error src text =>
      have field := fields_text msg legible (.text (Text.ofInt (-1) ++ "|src".toList)) (.text (Text.ofInt src))
      exact congrArg (fun field => Notice.mk src (-1) (field.map Field.str)) field
  | finalGraph src text =>
      have field := fields_text graph legible (.text (Text.ofInt 1 ++ "|src".toList)) (.text (Text.ofInt src))
      exact congrArg (fun field => Notice.mk src 1 (field.map Field.str)) field
  | result src atlas poisons path rtts => rfl
  | lostConnectivity src atlas poisons path rtts => rfl
  | noMorePoisons src => rfl

theorem record_accepted (legible : entry.Legible floats) (listed : ∀ poisons, (order poisons).toFinset = poisons)
    (before : List Notice) : (entry.record floats order).Accepted floats.float? before ↔ entry.AcceptedAfter floats before := by
  have fields {measurementId : Int} {poisons : Finset Asn} {path : List Asn} {rtts : List (Asn × ℚ)}
      (legible : rtts.map Prod.fst = path ∧ ∀ hop ∈ rtts, floats.isFloat hop.2) (code source : Field) :
      PathFields floats.float? (code :: source :: finditer 0 (pathTail floats order measurementId poisons path rtts ++ [',']))
        ↔ Parsable floats path rtts := by
    rw [← Frrp.parseValidEntry_returns_iff 0 { srcAsn := 0 } false]
    exact parseValidEntry_returns_iff legible.1 legible.2 (listed poisons) 0 _ code source false
  cases entry with
  | noMorePoisons src => exact iff_of_true (Record.accepted_other (show (3 : Int) ∉ _ by decide)) trivial
  | error src msg =>
      refine iff_of_true ((Record.accepted_error rfl).mpr fun _ => ?_) trivial
      exact congrArg Option.isSome (fields_text (by decide) legible _ _)
  | finalGraph src graphPath =>
      refine iff_of_true ((Record.accepted_finalGraph rfl).mpr fun _ => ?_) trivial
      exact congrArg Option.isSome (fields_text (by decide) legible _ _)
  | result src atlas poisons path rtts => exact (Record.accepted_result rfl).trans (fields legible _ _)
  | lostConnectivity src atlas poisons path rtts =>
      exact (Record.accepted_lostConnectivity rfl).trans (forall_congr' fun _ => fields legible _ _)

end Lines

section Runs

variable {settings : Settings} {experiment : Experiment} {order : Finset Asn → List Asn} {src : Asn} {entry : FrrpEntry}

def logLines (log : List FrrpEntry) : List (LogLine FrrpEntry) := log.flatMap FrrpEntry.lines

def logNotices (lines : List (LogLine FrrpEntry)) : List Notice := lines.filterMap (LogLine.notice? FrrpEntry.notice)

/-- What the parser needs of a line of the file depends on the lines before it. -/
def AcceptedAfter (floats : Floats) (before : List (LogLine FrrpEntry)) (line : LogLine FrrpEntry) : Prop :=
  line.Accepted (FrrpEntry.AcceptedAfter floats) floats.float? (logNotices before)

/-- An entry that is written in one line is read as this record. -/
def FrrpEntry.Reads (floats : Floats) (entry : FrrpEntry) (record : Record) : Prop :=
  entry.Legible floats ∧ ∃ order, (∀ poisons, (order poisons).toFinset = poisons) ∧ record = entry.record floats order

theorem shown_legible (legible : entry.Legible floats) (listed : ∀ poisons, (order poisons).toFinset = poisons) :
    List.Forall₂ (Shows (FrrpEntry.Reads floats)) (Text.readlines (entry.line floats order ++ ['\n'])) [.whole entry] := by
  rw [Text.readlines_line (oneLine_line legible)]
  have stripped : Text.rstrip (entry.line floats order ++ ['\n']) =
      entryLine entry.code entry.src (entry.tail floats order) := by
    rw [Text.rstrip_line (line_ends order legible), line_eq]
  exact .cons (.whole (readRecord_entryLine stripped) ⟨legible, order, listed, rfl⟩) .nil

theorem fronted_gpickleName (settings : Settings) (src : Asn) : Fronted (settings.gpickleName src) :=
  ⟨"graph_results/atlas-as-".toList, _, by unfold Settings.gpickleName; simp only [List.append_assoc]; rfl, by decide,
    ⟨'g', by decide, by decide⟩, ⟨'-', by decide, by decide⟩⟩

/-- The lines of the file for what the program writes, whatever the name of the experiment. -/
theorem shown_written (written : entry.Written settings experiment src)
    (listed : ∀ poisons, (order poisons).toFinset = poisons) :
    List.Forall₂ (Shows (FrrpEntry.Reads experiment.floats))
      (Text.readlines (entry.line experiment.floats order ++ ['\n'])) entry.lines := by
  cases entry with
  | finalGraph asn graphPath =>
      obtain ⟨_, rfl⟩ := written
      have label : Text.OneLine ("1|src,".toList ++ Text.ofInt asn ++ ",graph_path,".toList) :=
        (oneLine_numbered (by decide) asn).append (by decide)
      obtain ⟨first, read, stripped, printable⟩ := readlines_fronted (fronted_gpickleName settings src) label
      have lines : Text.readlines (FrrpEntry.line experiment.floats order (.finalGraph asn (settings.gpickleName src)) ++ ['\n']) =
          first :: restLines (settings.gpickleName src) := read
      rw [lines]
      refine .cons (.whole (readRecord_entryLine (stripped.trans (finalGraphLine_eq asn _))) ⟨printable, order, listed, rfl⟩) ?_
      exact List.forall₂_map_right_iff.mpr (List.forall₂_same.mpr fun text _ => .rest text)
  | error asn msg =>
      have legible : FrrpEntry.Legible experiment.floats (.error asn msg) := printable_message written.2
      exact shown_legible legible listed
  | result asn atlas poisons path rtts =>
      have legible : FrrpEntry.Legible experiment.floats (.result asn atlas poisons path rtts) :=
        ⟨written.2.1, TracedHops.isFloat written.2⟩
      exact shown_legible legible listed
  | lostConnectivity asn atlas poisons path rtts =>
      have legible : FrrpEntry.Legible experiment.floats (.lostConnectivity asn atlas poisons path rtts) :=
        ⟨written.2.1, TracedHops.isFloat written.2⟩
      exact shown_legible legible listed
  | noMorePoisons asn => exact shown_legible trivial listed

/-- Every line of the log was written in the round of the loop for its source. -/
theorem runMeasurements_written (floats : Floats) (settings : Settings) (limit : Nat) (services : Nat → SourceServices)
    (sources : List (Asn × Int)) :
    ∀ entry ∈ frrpLog (runMeasurements floats settings limit services sources).1,
      ∃ index, entry.Written settings ((services index).experiment floats settings) entry.src := by
  induction sources generalizing services with
  | nil => simp [runMeasurements, frrpLog]
  | cons source rest ih =>
      obtain ⟨first, degree⟩ := source
      have writes := runMeasurement_writes floats settings (services 0) limit first degree
      have own {log : List FrrpEntry} (written : WrittenLog settings ((services 0).experiment floats settings) first log)
          {entry : FrrpEntry} (member : entry ∈ log) :
          ∃ index, entry.Written settings ((services index).experiment floats settings) entry.src := by
        have now := written.entries entry member
        exact ⟨0, by rw [now.src_eq]; exact now⟩
      intro entry member
      rw [runMeasurements] at member
      cases done : runMeasurement floats settings (services 0) limit first degree (.start first) with
      | error error state =>
          rw [done] at writes member
          exact own writes (by simpa [frrpLog] using member)
      | ok _ state =>
          rw [done] at writes member
          rw [frrpLog, List.flatMap_cons, List.mem_append] at member
          rcases member with here | later
          · exact own writes.1 here
          · obtain ⟨index, written⟩ := ih (fun index => services (index + 1)) entry later
            exact ⟨index + 1, written⟩

/-- The parser gets through the log of a run exactly if it accepts each line of the file, and the runs that it
rebuilds then know what the lines say. -/
theorem parseFile_runMeasurements (floats : Floats) (order : SetOrder Asn) (settings : Settings)
    (services : Nat → SourceServices) (limit : Nat) (sources : List (Asn × Int)) :
    let log := frrpLog (runMeasurements floats settings limit services sources).1
    (∀ runs, parseFile floats.float? (frrpLogFile floats order log) = .ok runs →
      ∃ rebuilt : Rebuilt, rebuilt.runs = runs ∧ Frrp.Knows rebuilt (logNotices (logLines log))) ∧
    ((∃ runs, parseFile floats.float? (frrpLogFile floats order log) = .ok runs) ↔
      Chronicle (AcceptedAfter floats) (logLines log)) := by
  intro log
  have each (index : Nat) (entry : FrrpEntry) (member : entry ∈ log) : List.Forall₂ (Shows (FrrpEntry.Reads floats))
      (Text.readlines (entry.line floats (order.items index) ++ ['\n'])) entry.lines := by
    obtain ⟨number, written⟩ := runMeasurements_written floats settings limit services sources entry member
    exact @shown_written settings ((services number).experiment floats settings) _ _ _ written (order.complete index)
  have notices (entry : FrrpEntry) (record : Record) (reads : entry.Reads floats record) : record.notice = entry.notice := by
    obtain ⟨legible, _, _, rfl⟩ := reads
    exact record_notice legible
  have accepts (before : List Notice) (entry : FrrpEntry) (record : Record) (reads : entry.Reads floats record) :
      record.Accepted floats.float? before ↔ entry.AcceptedAfter floats before := by
    obtain ⟨legible, _, listed, rfl⟩ := reads
    exact record_accepted legible listed before
  rw [frrpLogFile, parseFile_eq comments_frrpHeader]
  exact parse_shown_runs (shown_entries each) notices accepts

/-- The log of a run is parsed exactly if, whenever a path on it is parsed, it is not empty and has no sign, and what
follows a line break in the name of the experiment is accepted. -/
theorem log_parsed_iff (floats : Floats) (order : SetOrder Asn) (settings : Settings) (services : Nat → SourceServices)
    (limit : Nat) (sources : List (Asn × Int)) :
    (∃ runs, parseFile floats.float?
        (frrpLogFile floats order (frrpLog (runMeasurements floats settings limit services sources).1)) = .ok runs) ↔
      Chronicle (AcceptedAfter floats) (logLines (frrpLog (runMeasurements floats settings limit services sources).1)) :=
  (parseFile_runMeasurements floats order settings services limit sources).2

theorem FrrpEntry.Written.legible (oneLine : settings.OneLine) (written : entry.Written settings experiment src) :
    entry.Legible experiment.floats := by
  cases entry with
  | error asn msg => exact printable_message written.2
  | finalGraph asn graphPath =>
      obtain ⟨_, rfl⟩ := written
      exact printable_gpickleName oneLine src
  | result asn atlas poisons path rtts => exact ⟨written.2.1, TracedHops.isFloat written.2⟩
  | lostConnectivity asn atlas poisons path rtts => exact ⟨written.2.1, TracedHops.isFloat written.2⟩
  | noMorePoisons asn => trivial

theorem runMeasurements_legible (floats : Floats) (oneLine : settings.OneLine) (limit : Nat)
    (services : Nat → SourceServices) (sources : List (Asn × Int)) :
    ∀ entry ∈ frrpLog (runMeasurements floats settings limit services sources).1, entry.Legible floats := by
  intro entry member
  obtain ⟨index, written⟩ := runMeasurements_written floats settings limit services sources entry member
  exact written.legible oneLine

end Runs

section Example

/-- The second traceroute of the source has a hop that does not resolve to an AS. -/
def unresolvedServices : Nat → SourceServices := fun _ => scriptedSource [[1, 2], [0]]

theorem unresolved_log_fails : ¬ ∃ runs, parseFile wholeFloats.float? (frrpLogFile wholeFloats .sorted
    (frrpLog (runMeasurements wholeFloats exampleSettings 3 unresolvedServices [(1, 2)]).1)) = .ok runs := by
  have fails : (parseFile wholeFloats.float? (frrpLogFile wholeFloats .sorted
      (frrpLog (runMeasurements wholeFloats exampleSettings 3 unresolvedServices [(1, 2)]).1))).toBool = false := by
    rw [parseFile_frrpLogFile_eq .sorted (runMeasurements_legible wholeFloats (by decide) 3 unresolvedServices [(1, 2)])]
    decide +kernel
  rintro ⟨runs, parsed⟩
  rw [parsed] at fails
  contradiction

end Example

end ActiveBgp.Peering

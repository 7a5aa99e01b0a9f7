import ActiveBgp.Frrp.FRRPRun
import ActiveBgp.Frrp.LogFields

namespace ActiveBgp.Frrp

open ActiveBgp.Python

/-- An object that is filled from a line; the order of its poisons is never used. -/
def AnnotatedASPath.parsed (identity : Nat) (poisons : List Asn) (measurementId : Int) (hops : List (Asn × ℚ)) :
    AnnotatedASPath :=
  { hops.foldl (fun annotated hop => annotated.addAs hop.1 hop.2)
      { AnnotatedASPath.new identity with poisons := some poisons.toFinset } with
    atlasMId := some measurementId }

/-- What a path says about its ASes, without its identity. -/
structure PathContent where
  ases : List Asn
  rtts : List ℚ
  poisons : Finset Asn
  atlasMId : Option Int
deriving DecidableEq

def AnnotatedASPath.content (path : AnnotatedASPath) : PathContent :=
  ⟨path.ases, path.rtts, path.poisons.getD ∅, path.atlasMId⟩

theorem AnnotatedASPath.parsed_spec (identity : Nat) (poisons : List Asn) (measurementId : Int) (hops : List (Asn × ℚ)) :
    (parsed identity poisons measurementId hops).identity = identity ∧
      (parsed identity poisons measurementId hops).content =
        ⟨hops.map Prod.fst, hops.map Prod.snd, poisons.toFinset, some measurementId⟩ := by
  let empty : AnnotatedASPath := { AnnotatedASPath.new identity with poisons := some poisons.toFinset }
  obtain ⟨same, given, ases⟩ := foldl_addAs hops empty
  have rtts := foldl_addAs_rtts hops empty
  refine ⟨same, ?_⟩
  simp only [content, parsed, PathContent.mk.injEq]
  exact ⟨ases.trans (List.nil_append _), rtts.trans (List.nil_append _), by rw [given]; rfl, trivial⟩

/-- The source, the code and the fields of a line. -/
structure Record where
  src : Asn
  code : Int
  fields : List Field

/-- The part of the loop of `parse_file` that depends on the line alone; a comment is no record. -/
def readRecord (line : Text) : Except PyError (Option Record) := do
  let line := Text.rstrip line
  if line.head? = some '#' then return none
  match line.splitOn '|' with
  | resultType :: _ :: _ =>
      let result := finditer 0 (line ++ [','])
      let src ← orRaise .indexError result[1]?
      let src ← src.toInt
      let resultType ← parseAsn resultType
      return some ⟨src, resultType, result⟩
  | _ => throw .indexError

section Parser

variable (float? : Text → Option ℚ)

/-- `x.split('-')`, unpacked into an AS and its time. -/
def splitHop (item : Text) : Except PyError (Asn × ℚ) :=
  match item.splitOn '-' with
  | [asn, rtt] => do
      let asn ← parseAsn asn
      let rtt ← orRaise (.valueError "could not convert string to float".toList) (float? rtt)
      return (asn, rtt)
  | _ => throw (.valueError "not two values to unpack".toList)

def parseValidEntry (identity : Nat) (run : FRRPRun) (result : List Field) (lostConnectivityEntry : Bool) :
    Except PyError FRRPRun := do
  let rawAsPath ← orRaise .indexError result[7]?
  let rawRttPath ← orRaise .indexError result[9]?
  let rawPoisons ← orRaise .indexError result[5]?
  let measurementId ← orRaise .indexError result[3]?
  let measurementId ← measurementId.toInt
  let originalPath := decide (rawPoisons = .none ∧ rawAsPath ≠ .none)
  let poisons ← if originalPath then pure [] else rawPoisons.iter
  let poisons ← poisons.mapM parseAsn
  let hops ← rawRttPath.iter
  let hops ← hops.mapM (splitHop float?)
  let path := AnnotatedASPath.parsed identity poisons measurementId hops
  if lostConnectivityEntry then return run.addLostConnectivityPath path
  else if originalPath then return { run with originalPath := some path }
  else return run.addDiscoveredPath path

/-- The part of the loop of `parse_file` that depends on the code of the line. -/
def updateRun (identity : Nat) (preexisting : Bool) (run : FRRPRun) (resultType : Int) (result : List Field) :
    Except PyError FRRPRun := do
  if resultType = -1 then
    if run.initialLostConnectivityFailure then
      let error ← orRaise .indexError result[3]?
      return run.addError error.str
    else return run
  else if resultType = 1 then
    if run.initialLostConnectivityFailure then return run
    else
      let finalGraphPath ← orRaise .indexError result[3]?
      return { run with finalGraphPath := some finalGraphPath.str }
  else if resultType = 2 then
    if preexisting then parseValidEntry float? identity run result true
    else return { run with initialLostConnectivityFailure := true }
  else if resultType = 0 then parseValidEntry float? identity run result false
  else return run

/-- The runs that were rebuilt so far, and the count of lines, which gives the objects
that are made their identities. -/
structure Rebuilt where
  lines : Nat
  runs : Dict Asn FRRPRun

def Rebuilt.run (rebuilt : Rebuilt) (src : Asn) : FRRPRun := (rebuilt.runs.get? src).getD { srcAsn := src }

/-- The body of the loop of `parse_file`. -/
def parseLine (rebuilt : Rebuilt) (line : Text) : Except PyError Rebuilt := do
  let line := Text.rstrip line
  if line.head? = some '#' then return rebuilt
  match line.splitOn '|' with
  | resultType :: _ :: _ =>
      let result := finditer 0 (line ++ [','])
      let src ← orRaise .indexError result[1]?
      let src ← src.toInt
      let resultType ← parseAsn resultType
      let run ← updateRun float? rebuilt.lines (rebuilt.runs.get? src).isSome (rebuilt.run src) resultType result
      return ⟨rebuilt.lines + 1, rebuilt.runs.set src run⟩
  | _ => throw .indexError

def parseFile (text : Text) : Except PyError (Dict Asn FRRPRun) := do
  let rebuilt ← (Text.readlines text).foldlM (parseLine float?) ⟨0, .empty⟩
  return rebuilt.runs

/-- What a record does to the runs. -/
def Rebuilt.update (rebuilt : Rebuilt) (record : Record) : Except PyError Rebuilt := do
  let run ← updateRun float? rebuilt.lines (rebuilt.runs.get? record.src).isSome (rebuilt.run record.src) record.code
    record.fields
  return ⟨rebuilt.lines + 1, rebuilt.runs.set record.src run⟩

theorem parseLine_eq (rebuilt : Rebuilt) (line : Text) : parseLine float? rebuilt line =
    readRecord line >>= fun record? => record?.elim (.ok rebuilt) (rebuilt.update float?) := by
  unfold parseLine readRecord
  simp only
  split
  · rfl
  · rcases (Text.rstrip line).splitOn '|' with _ | ⟨resultType, _ | ⟨result, others⟩⟩
    · rfl
    · rfl
    · simp only [bind_assoc]
      rfl

end Parser

section Entries

variable {float? : Text → Option ℚ} {rebuilt : Rebuilt} {run : FRRPRun} {resultType src : Int} {tail : Text}

theorem mapM_map_ok {α β : Type} {print : α → β} {convert : β → Except PyError α} {items : List α}
    (converts : ∀ item ∈ items, convert (print item) = .ok item) : (items.map print).mapM convert = .ok items := by
  rw [mapM_eq_ok, List.forall₂_map_left_iff]
  exact List.forall₂_same.mpr converts

/-- Where a path of a run goes. -/
def FRRPRun.place (run : FRRPRun) (lostConnectivityEntry originalPath : Bool) (path : AnnotatedASPath) : FRRPRun :=
  if lostConnectivityEntry then run.addLostConnectivityPath path
  else if originalPath then { run with originalPath := some path }
  else run.addDiscoveredPath path

theorem parseValidEntry_fields {result : List Field} {items rttItems : List Text} {rawPoisons : Field}
    {measurementId : Int} {hops : List (Asn × ℚ)} {poisons : List Asn} (identity : Nat) (lost : Bool)
    (asPath : result[7]? = some (.list items)) (rttPath : result[9]? = some (.list rttItems))
    (poisonsField : result[5]? = some rawPoisons) (atlas : result[3]? = some (.text (Text.ofInt measurementId)))
    (read : rttItems.mapM (splitHop float?) = .ok hops)
    (listed : rawPoisons = .none ∧ poisons = [] ∨ ∃ items, rawPoisons = .list items ∧ items.mapM parseAsn = .ok poisons) :
    parseValidEntry float? identity run result lost =
      .ok (run.place lost (decide (rawPoisons = .none)) (.parsed identity poisons measurementId hops)) := by
  have measurement : Field.toInt (.text (Text.ofInt measurementId)) = .ok measurementId := by
    simp only [Field.toInt, Text.toInt?_ofInt]
  unfold parseValidEntry
  simp only [asPath, rttPath, poisonsField, atlas, orRaise, except_bind_ok, measurement, Field.iter, read]
  rcases listed with ⟨rfl, rfl⟩ | ⟨items, rfl, numbers⟩
  · cases lost <;> rfl
  · simp only [reduceCtorEq, false_and, decide_false, Bool.false_eq_true, if_false, except_bind_ok, numbers]
    cases lost <;> rfl

/-- There are ten fields, with numbers where the parser converts them. -/
structure PathFields (float? : Text → Option ℚ) (fields : List Field) : Prop where
  asPath : ∃ field, fields[7]? = some field
  measurement : ∃ field, fields[3]? = some field ∧ ∃ number, field.toInt = .ok number
  poisons : ∃ field, fields[5]? = some field ∧ ((field = .none ∧ fields[7]? ≠ some .none) ∨
    ∃ items, field.iter = .ok items ∧ ∀ item ∈ items, ∃ asn, parseAsn item = .ok asn)
  rttPath : ∃ field, fields[9]? = some field ∧
    ∃ items, field.iter = .ok items ∧ ∀ item ∈ items, ∃ hop, splitHop float? item = .ok hop

/-- A line that is parsed has fields that can be, and a path that is put where it belongs. -/
theorem parseValidEntry_ok {result : List Field} {identity : Nat} {lost : Bool} {after : FRRPRun}
    (parsed : parseValidEntry float? identity run result lost = .ok after) :
    PathFields float? result ∧ ∃ original path, after = run.place lost original path := by
  unfold parseValidEntry at parsed
  obtain ⟨asPath, at7, parsed⟩ := except_bind_eq_ok.mp parsed
  obtain ⟨rttPath, at9, parsed⟩ := except_bind_eq_ok.mp parsed
  obtain ⟨rawPoisons, at5, parsed⟩ := except_bind_eq_ok.mp parsed
  obtain ⟨measurement, at3, parsed⟩ := except_bind_eq_ok.mp parsed
  obtain ⟨measurementId, number, parsed⟩ := except_bind_eq_ok.mp parsed
  rw [orRaise_eq_ok] at at3 at5 at7 at9
  simp only at parsed
  by_cases original : rawPoisons = .none ∧ asPath ≠ .none
  · rw [decide_eq_true original, if_pos rfl] at parsed
    obtain ⟨_, _, parsed⟩ := except_bind_eq_ok.mp parsed
    obtain ⟨poisons, _, parsed⟩ := except_bind_eq_ok.mp parsed
    obtain ⟨items, iterated, parsed⟩ := except_bind_eq_ok.mp parsed
    obtain ⟨hops, read, parsed⟩ := except_bind_eq_ok.mp parsed
    have fields : PathFields float? result := ⟨⟨asPath, at7⟩, ⟨measurement, at3, measurementId, number⟩,
      ⟨rawPoisons, at5, .inl ⟨original.1, by rw [at7]; simpa using original.2⟩⟩,
      ⟨rttPath, at9, items, iterated, mapM_ok_iff.mp ⟨hops, read⟩⟩⟩
    refine ⟨fields, true, .parsed identity poisons measurementId hops, ?_⟩
    cases lost <;> exact (Except.ok.inj parsed).symm
  · rw [decide_eq_false original, if_neg (by decide)] at parsed
    obtain ⟨numbers, listed, parsed⟩ := except_bind_eq_ok.mp parsed
    obtain ⟨poisons, converted, parsed⟩ := except_bind_eq_ok.mp parsed
    obtain ⟨items, iterated, parsed⟩ := except_bind_eq_ok.mp parsed
    obtain ⟨hops, read, parsed⟩ := except_bind_eq_ok.mp parsed
    have fields : PathFields float? result := ⟨⟨asPath, at7⟩, ⟨measurement, at3, measurementId, number⟩,
      ⟨rawPoisons, at5, .inr ⟨numbers, listed, mapM_ok_iff.mp ⟨poisons, converted⟩⟩⟩,
      ⟨rttPath, at9, items, iterated, mapM_ok_iff.mp ⟨hops, read⟩⟩⟩
    refine ⟨fields, false, .parsed identity poisons measurementId hops, ?_⟩
    cases lost <;> exact (Except.ok.inj parsed).symm

theorem parseValidEntry_returns_iff {result : List Field} (identity : Nat) (run : FRRPRun) (lost : Bool) :
    (∃ after, parseValidEntry float? identity run result lost = .ok after) ↔ PathFields float? result := by
  constructor
  · intro returns
    obtain ⟨after, parsed⟩ := returns
    exact (parseValidEntry_ok parsed).1
  · intro fields
    obtain ⟨asPath, at7⟩ := fields.asPath
    obtain ⟨measurement, at3, measurementId, number⟩ := fields.measurement
    obtain ⟨rawPoisons, at5, listed⟩ := fields.poisons
    obtain ⟨rttPath, at9, items, iterated, each⟩ := fields.rttPath
    obtain ⟨hops, read⟩ := mapM_ok_iff.mpr each
    unfold parseValidEntry
    simp only [at3, at5, at7, at9, orRaise, except_bind_ok, number, iterated, read]
    by_cases original : rawPoisons = .none ∧ asPath ≠ .none
    · rw [decide_eq_true original, if_pos rfl]
      cases lost <;> exact ⟨_, rfl⟩
    · rcases listed with none | ⟨numbers, list, converted⟩
      · exact absurd ⟨none.1, by simpa [at7] using none.2⟩ original
      · obtain ⟨poisons, converts⟩ := mapM_ok_iff.mpr converted
        rw [decide_eq_false original, if_neg (by decide)]
        simp only [list, except_bind_ok, converts]
        cases lost <;> exact ⟨_, rfl⟩

/-- A line with a code and a source; `tail` is what follows the source. -/
def entryLine (resultType src : Int) (tail : Text) : Text :=
  Text.ofInt resultType ++ '|' :: ("src".toList ++ ',' :: (Text.ofInt src ++ ',' :: tail))

theorem head?_ofInt {char : Char} (outside : Text.OutsideInt char) (value : Int) (rest : Text) :
    (Text.ofInt value ++ rest).head? ≠ some char := by
  intro same
  obtain ⟨first, others, digits⟩ := List.exists_cons_of_ne_nil (Text.ofInt_ne_nil value)
  refine Text.not_mem_ofInt outside value ?_
  rw [digits] at same ⊢
  have equal : first = char := by simpa using same
  simp [equal]

theorem finditer_entryLine : finditer 0 (entryLine resultType src tail ++ [',']) =
    .text (Text.ofInt resultType ++ "|src".toList) :: .text (Text.ofInt src) :: finditer 0 (tail ++ [',']) := by
  have comma (value : Int) : ',' ∉ Text.ofInt value := Text.not_mem_ofInt (by decide) value
  have first : ',' ∉ Text.ofInt resultType ++ "|src".toList := by
    simpa using comma resultType
  have split : entryLine resultType src tail ++ [','] =
      (Text.ofInt resultType ++ "|src".toList) ++ ',' :: (Text.ofInt src ++ ',' :: (tail ++ [','])) := by
    simp [entryLine]
  have bracket (value : Int) : (Text.ofInt value).head? ≠ some '[' := by
    have alone := head?_ofInt (show Text.OutsideInt '[' by decide) value []
    simpa using alone
  rw [split, finditer_text (by simp) first (head?_ofInt (by decide) resultType _),
    finditer_text (Text.ofInt_ne_nil src) (comma src) (bracket src)]

/-- Of a line, the parser sees what is left of it without the blanks at its end. -/
theorem readRecord_entryLine {line : Text} (same : Text.rstrip line = entryLine resultType src tail) :
    readRecord line = .ok (some ⟨src, resultType,
      .text (Text.ofInt resultType ++ "|src".toList) :: .text (Text.ofInt src) :: finditer 0 (tail ++ [','])⟩) := by
  have notComment : (entryLine resultType src tail).head? ≠ some '#' := head?_ofInt (by decide) resultType _
  have split : (entryLine resultType src tail).splitOn '|' =
      Text.ofInt resultType :: ("src".toList ++ ',' :: (Text.ofInt src ++ ',' :: tail)).splitOn '|' :=
    List.splitOn_append_cons_self_of_not_mem (Text.not_mem_ofInt (show Text.OutsideInt '|' by decide) resultType) _
  obtain ⟨second, others, more⟩ := List.exists_cons_of_ne_nil
    (List.splitOn_ne_nil '|' ("src".toList ++ ',' :: (Text.ofInt src ++ ',' :: tail)))
  have source : Field.toInt (.text (Text.ofInt src)) = .ok src := by
    simp only [Field.toInt, Text.toInt?_ofInt]
  have code : parseAsn (Text.ofInt resultType) = .ok resultType := by
    simp only [parseAsn, Text.toInt?_ofInt]
  unfold readRecord
  simp only [same, if_neg notComment, split, more, finditer_entryLine, List.getElem?_cons_succ,
    List.getElem?_cons_zero, orRaise, except_bind_ok, source, code]
  rfl

theorem parseLine_entryLine (rebuilt : Rebuilt)
    (last : ∀ char ∈ (entryLine resultType src tail).getLast?, Text.isBlank char = false) :
    parseLine float? rebuilt (entryLine resultType src tail ++ ['\n']) =
      (updateRun float? rebuilt.lines (rebuilt.runs.get? src).isSome (rebuilt.run src) resultType
        (.text (Text.ofInt resultType ++ "|src".toList) :: .text (Text.ofInt src) :: finditer 0 (tail ++ [',']))).map
          fun run => ⟨rebuilt.lines + 1, rebuilt.runs.set src run⟩ := by
  rw [parseLine_eq, readRecord_entryLine (Text.rstrip_line last)]
  rfl

end Entries

end ActiveBgp.Frrp

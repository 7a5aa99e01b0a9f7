import ActiveBgp.Python.Text

namespace ActiveBgp.Python.Text

/-- What `str.rstrip` removes. -/
def isBlank (char : Char) : Bool := isSpace char ∨ (0x1c ≤ char.toNat ∧ char.toNat ≤ 0x1f)

def rstrip (text : Text) : Text := text.rdropWhile isBlank

/-- A file in text mode has all its line breaks read as `\n`. -/
def universalNewlines : Text → Text
  | [] => []
  | '\r' :: '\n' :: rest => '\n' :: universalNewlines rest
  | '\r' :: rest => '\n' :: universalNewlines rest
  | char :: rest => char :: universalNewlines rest

/-- The lines of a text with their ends; the last one may have none. -/
def splitLines : Text → List Text
  | [] => []
  | '\n' :: rest => ['\n'] :: splitLines rest
  | char :: rest =>
      match splitLines rest with
      | [] => [[char]]
      | line :: later => (char :: line) :: later

def readlines (text : Text) : List Text := splitLines (universalNewlines text)

def OneLine (text : Text) : Prop := '\n' ∉ text ∧ '\r' ∉ text

instance (text : Text) : Decidable (OneLine text) := by unfold OneLine; infer_instance

theorem OneLine.append {text more : Text} (first : OneLine text) (second : OneLine more) : OneLine (text ++ more) := by
  simp only [OneLine, List.mem_append, not_or] at *
  exact ⟨⟨first.1, second.1⟩, first.2, second.2⟩

/-- Nothing in the text is blank. -/
def Inked (text : Text) : Prop := ∀ char ∈ text, isBlank char = false

instance (text : Text) : Decidable (Inked text) := List.decidableBAll _ _

theorem Inked.append {text more : Text} (first : Inked text) (second : Inked more) : Inked (text ++ more) := by
  simp only [Inked, List.mem_append]
  exact fun char member => member.elim (first char) (second char)

theorem Inked.oneLine {text : Text} (inked : Inked text) : OneLine text := by
  have feed : isBlank '\n' = true := by decide
  have carriage : isBlank '\r' = true := by decide
  constructor
  · intro member
    simp [inked _ member] at feed
  · intro member
    simp [inked _ member] at carriage

theorem Inked.ends {text : Text} (inked : Inked text) : ∀ char ∈ text.getLast?, isBlank char = false :=
  fun char member => inked char (List.mem_of_mem_getLast? member)

theorem Numeric.inked {text : Text} (numeric : Numeric text) : Inked text := by
  have signs : Inked ['-', '+', '.', 'e'] := by decide
  intro char member
  rcases numeric char member with digit | sign
  · have range : 48 ≤ char.toNat ∧ char.toNat ≤ 57 := Char.isDigit_iff_toNat.mp digit
    simp only [isBlank, isSpace_digit digit, Bool.false_eq_true, false_or, decide_eq_false_iff_not]
    omega
  · exact signs char sign

theorem inked_ofInt (value : Int) : Inked (ofInt value) := (numeric_ofInt value).inked

theorem universalNewlines_line {line : Text} (oneLine : OneLine line) (rest : Text) :
    universalNewlines (line ++ '\n' :: rest) = line ++ '\n' :: universalNewlines rest := by
  induction line with
  | nil => simp [universalNewlines]
  | cons char tail ih =>
      obtain ⟨noFeed, noReturn⟩ := oneLine
      obtain ⟨notFeed, later⟩ := List.ne_and_not_mem_of_not_mem_cons noFeed
      obtain ⟨notReturn, laterReturn⟩ := List.ne_and_not_mem_of_not_mem_cons noReturn
      rw [List.cons_append, universalNewlines, ih ⟨later, laterReturn⟩]
      · rfl
      · intro rest' same
        exact fun _ => notReturn same.symm
      · exact fun same => notReturn same.symm

theorem splitLines_line {line : Text} (noFeed : '\n' ∉ line) (rest : Text) :
    splitLines (line ++ '\n' :: rest) = (line ++ ['\n']) :: splitLines rest := by
  induction line with
  | nil => simp [splitLines]
  | cons char tail ih =>
      obtain ⟨notFeed, later⟩ := List.ne_and_not_mem_of_not_mem_cons noFeed
      rw [List.cons_append, splitLines, ih later]
      · rfl
      · exact fun same => notFeed same.symm

/-- A line is not empty, and only its last character may be a line feed. -/
theorem line_of_mem_splitLines {text line : Text} (member : line ∈ splitLines text) : line ≠ [] ∧ '\n' ∉ line.dropLast := by
  induction text generalizing line with
  | nil => simp [splitLines] at member
  | cons char rest ih =>
      by_cases feed : char = '\n'
      · subst feed
        rw [splitLines] at member
        rcases List.mem_cons.mp member with rfl | later
        · exact ⟨by simp, by simp⟩
        · exact ih later
      · rw [splitLines] at member
        · cases split : splitLines rest with
          | nil =>
              rw [split] at member
              obtain rfl := List.mem_singleton.mp member
              exact ⟨by simp, by simp⟩
          | cons first others =>
              rw [split] at member ih
              rcases List.mem_cons.mp member with rfl | later
              · obtain ⟨nonempty, body⟩ := ih List.mem_cons_self
                refine ⟨by simp, ?_⟩
                rw [List.dropLast_cons_of_ne_nil nonempty]
                exact List.not_mem_cons_of_ne_of_not_mem (Ne.symm feed) body
              · exact ih (List.mem_cons_of_mem first later)
        · exact feed

theorem universalNewlines_append (text more : Text) :
    universalNewlines (text ++ '\n' :: more) = universalNewlines (text ++ ['\n']) ++ universalNewlines more := by
  induction text using universalNewlines.induct with
  | case1 => rfl
  | case2 rest ih => simp only [List.cons_append, universalNewlines, ih]
  | case3 rest other ih =>
      cases rest with
      | nil => simp [universalNewlines]
      | cons char rest =>
          have notFeed : char ≠ '\n' := fun same => other rest (by rw [same])
          simp only [List.cons_append] at ih ⊢
          rw [universalNewlines, universalNewlines, ih]
          · rfl
          · exact fun _ same => notFeed (List.cons.inj same).1
          · exact fun _ same => notFeed (List.cons.inj same).1
  | case4 char rest pair single ih =>
      simp only [List.cons_append]
      rw [universalNewlines, universalNewlines, ih]
      · rfl
      all_goals first | exact single | exact fun rest same => absurd same single

theorem universalNewlines_ended (text : Text) : ∃ front, universalNewlines (text ++ ['\n']) = front ++ ['\n'] := by
  induction text using universalNewlines.induct with
  | case1 => exact ⟨[], rfl⟩
  | case2 rest ih =>
      obtain ⟨front, same⟩ := ih
      exact ⟨'\n' :: front, by simp only [List.cons_append, universalNewlines, same]⟩
  | case3 rest other ih =>
      cases rest with
      | nil => exact ⟨[], rfl⟩
      | cons char rest =>
          obtain ⟨front, same⟩ := ih
          refine ⟨'\n' :: front, ?_⟩
          simp only [List.cons_append] at same ⊢
          rw [universalNewlines, same]
          exact fun _ pair => other rest (by rw [(List.cons.inj pair).1])
  | case4 char rest pair single ih =>
      obtain ⟨front, same⟩ := ih
      refine ⟨char :: front, ?_⟩
      simp only [List.cons_append]
      rw [universalNewlines, same]
      all_goals first | exact single | exact fun rest same => absurd same single

theorem splitLines_ne_nil {text : Text} (nonempty : text ≠ []) : splitLines text ≠ [] := by
  cases text with
  | nil => contradiction
  | cons char rest =>
      by_cases feed : char = '\n'
      · simp [feed, splitLines]
      · rw [splitLines]
        · split <;> simp
        · exact feed

theorem splitLines_append (text more : Text) :
    splitLines (text ++ '\n' :: more) = splitLines (text ++ ['\n']) ++ splitLines more := by
  induction text with
  | nil => rfl
  | cons char rest ih =>
      by_cases feed : char = '\n'
      · subst feed
        simp only [List.cons_append, splitLines, ih]
      · obtain ⟨line, later, split⟩ := List.exists_cons_of_ne_nil
          (splitLines_ne_nil (show rest ++ ['\n'] ≠ [] by simp))
        rw [split] at ih
        simp only [List.cons_append]
        rw [splitLines, splitLines, ih, split]
        · rfl
        · exact feed
        · exact feed

theorem readlines_append (text more : Text) :
    readlines (text ++ '\n' :: more) = readlines (text ++ ['\n']) ++ readlines more := by
  obtain ⟨front, ended⟩ := universalNewlines_ended text
  rw [readlines, universalNewlines_append, readlines, readlines, ended, List.append_assoc, List.singleton_append,
    splitLines_append]

/-- A file that is written line by line is read line by line, where a line may give several. -/
theorem readlines_flatMap (lines : List Text) :
    readlines (lines.flatMap fun line => line ++ ['\n']) = lines.flatMap fun line => readlines (line ++ ['\n']) := by
  induction lines with
  | nil => rfl
  | cons line rest ih =>
      rw [List.flatMap_cons, List.flatMap_cons, List.append_assoc, List.singleton_append, readlines_append, ih]

theorem readlines_line {line : Text} (oneLine : OneLine line) : readlines (line ++ ['\n']) = [line ++ ['\n']] := by
  have single := universalNewlines_line oneLine []
  rw [readlines, single, universalNewlines]
  exact splitLines_line oneLine.1 []

theorem readlines_lines {lines : List Text} (oneLine : ∀ line ∈ lines, OneLine line) :
    readlines (lines.flatMap fun line => line ++ ['\n']) = lines.map fun line => line ++ ['\n'] := by
  rw [readlines_flatMap, List.map_eq_flatMap]
  exact List.flatMap_congr fun line member => readlines_line (oneLine line member)

theorem universalNewlines_front {front : Text} (oneLine : OneLine front) (text : Text) :
    universalNewlines (front ++ text) = front ++ universalNewlines text := by
  induction front with
  | nil => rfl
  | cons char tail ih =>
      obtain ⟨noFeed, noReturn⟩ := oneLine
      obtain ⟨_, later⟩ := List.ne_and_not_mem_of_not_mem_cons noFeed
      obtain ⟨notReturn, laterReturn⟩ := List.ne_and_not_mem_of_not_mem_cons noReturn
      rw [List.cons_append, universalNewlines, ih ⟨later, laterReturn⟩]
      · rfl
      · exact fun _ same => fun _ => notReturn same.symm
      · exact fun same => notReturn same.symm

/-- What stands in front of a text on its first line is in front of its first line. -/
theorem readlines_front {front text first : Text} {more : List Text} (oneLine : OneLine front)
    (read : readlines text = first :: more) : readlines (front ++ text) = (front ++ first) :: more := by
  rw [readlines] at read
  rw [readlines, universalNewlines_front oneLine]
  have noFeed := oneLine.1
  clear oneLine
  induction front with
  | nil => exact read
  | cons char tail ih =>
      obtain ⟨notFeed, later⟩ := List.ne_and_not_mem_of_not_mem_cons noFeed
      rw [List.cons_append, splitLines, ih later]
      · rfl
      · exact fun same => notFeed same.symm

theorem not_mem_universalNewlines (text : Text) : '\r' ∉ universalNewlines text := by
  induction text using universalNewlines.induct with
  | case1 => simp [universalNewlines]
  | case2 rest ih => simpa [universalNewlines] using ih
  | case3 rest other ih =>
      rw [universalNewlines]
      · simpa using ih
      · exact other
  | case4 char rest pair single ih =>
      rw [universalNewlines]
      · exact List.not_mem_cons_of_ne_of_not_mem (fun same => single same.symm) ih
      all_goals first | exact single | exact pair

theorem mem_of_mem_splitLines {text line : Text} (member : line ∈ splitLines text) {char : Char} (inside : char ∈ line) :
    char ∈ text := by
  induction text generalizing line with
  | nil => simp [splitLines] at member
  | cons first rest ih =>
      by_cases feed : first = '\n'
      · subst feed
        rw [splitLines] at member
        rcases List.mem_cons.mp member with rfl | later
        · exact List.mem_cons.mpr (.inl (List.mem_singleton.mp inside))
        · exact List.mem_cons_of_mem _ (ih later inside)
      · rw [splitLines] at member
        · cases split : splitLines rest with
          | nil =>
              rw [split] at member
              obtain rfl := List.mem_singleton.mp member
              exact List.mem_cons.mpr (.inl (List.mem_singleton.mp inside))
          | cons line others =>
              rw [split] at member ih
              rcases List.mem_cons.mp member with rfl | later
              · rcases List.mem_cons.mp inside with rfl | there
                · exact List.mem_cons_self
                · exact List.mem_cons_of_mem _ (ih List.mem_cons_self there)
              · exact List.mem_cons_of_mem _ (ih (List.mem_cons_of_mem _ later) inside)
        · exact feed

theorem oneLine_rstrip {text line : Text} (member : line ∈ readlines text) : OneLine (rstrip line) := by
  have kept {char : Char} (inside : char ∈ rstrip line) : char ∈ line := (List.rdropWhile_prefix _ _).subset inside
  refine ⟨fun inside => ?_, fun inside => not_mem_universalNewlines text (mem_of_mem_splitLines member (kept inside))⟩
  obtain ⟨nonempty, body⟩ := line_of_mem_splitLines member
  have parts : line.dropLast ++ [line.getLast nonempty] = line := List.dropLast_append_getLast nonempty
  have last : line.getLast nonempty = '\n' := by
    have there := kept inside
    rw [← parts] at there
    rcases List.mem_append.mp there with early | late
    · exact absurd early body
    · exact (List.mem_singleton.mp late).symm
  rw [← parts, last, rstrip, List.rdropWhile_concat_pos _ _ _ (by decide)] at inside
  exact body ((List.rdropWhile_prefix _ _).subset inside)

theorem rstrip_line {line : Text} (last : ∀ char ∈ line.getLast?, isBlank char = false) :
    rstrip (line ++ ['\n']) = line := by
  have blank : isBlank '\n' = true := by decide
  rw [rstrip, List.rdropWhile_concat_pos _ _ _ blank, List.rdropWhile_eq_self_iff]
  intro nonempty
  simp [last _ (List.getLast?_eq_some_getLast nonempty)]

/-- What ends a text without a blank stays in front of what follows. -/
theorem rstrip_front {front : Text} (ends : ∃ last ∈ front.getLast?, isBlank last = false) (text : Text) :
    rstrip (front ++ text) = front ++ rstrip text := by
  induction text using List.reverseRecOn with
  | nil =>
      obtain ⟨last, closes, inked⟩ := ends
      rw [List.append_nil, rstrip, List.rdropWhile_eq_self_iff.mpr]
      · simp [rstrip]
      · intro nonempty
        rw [List.getLast?_eq_some_getLast nonempty] at closes
        simp [Option.some.inj closes, inked]
  | append_singleton text char ih =>
      rw [← List.append_assoc]
      by_cases blank : isBlank char = true
      · rw [rstrip, List.rdropWhile_concat_pos _ _ _ blank, rstrip, List.rdropWhile_concat_pos _ _ _ blank]
        exact ih
      · rw [rstrip, List.rdropWhile_concat_neg _ _ _ blank, rstrip, List.rdropWhile_concat_neg _ _ _ blank,
          List.append_assoc]

theorem rstrip_ends {text : Text} (nonempty : rstrip text ≠ []) : ∃ last ∈ (rstrip text).getLast?, isBlank last = false :=
  ⟨_, List.getLast?_eq_some_getLast nonempty, eq_false_of_ne_true (List.rdropWhile_last_not isBlank text nonempty)⟩

theorem readlines_ended (text : Text) : ∃ first more, readlines (text ++ ['\n']) = first :: more := by
  obtain ⟨front, ended⟩ := universalNewlines_ended text
  exact List.exists_cons_of_ne_nil (splitLines_ne_nil (by rw [ended]; simp))

/-- Where `csv.reader` is in a record. -/
inductive CsvMode where
  | startRecord
  | startField
  | inField
  | inQuotedField
  | quoteInQuotedField
deriving DecidableEq

/-- The fields of the record that were read, and the field that is being read. -/
structure CsvState where
  mode : CsvMode
  fields : List Text
  field : Text

def CsvState.start : CsvState := ⟨.startRecord, [], []⟩

def CsvState.endField (state : CsvState) : CsvState := ⟨.startField, state.fields ++ [state.field], []⟩

def CsvState.add (state : CsvState) (mode : CsvMode) (char : Char) : CsvState := ⟨mode, state.fields, state.field ++ [char]⟩

/-- The state after a character; a record that ends with it is given out. -/
def CsvState.step (state : CsvState) (char : Char) : Option (List Text) × CsvState :=
  match state.mode, char with
  | .inQuotedField, '"' => (none, { state with mode := .quoteInQuotedField })
  | .inQuotedField, char => (none, state.add .inQuotedField char)
  | .quoteInQuotedField, '"' => (none, state.add .inQuotedField '"')
  | .startRecord, '"' | .startField, '"' => (none, { state with mode := .inQuotedField })
  | .startRecord, '\n' => (some [], .start)
  | _, '\n' => (some state.endField.fields, .start)
  | _, ',' => (none, state.endField)
  | _, char => (none, state.add .inField char)

def csvRecords (state : CsvState) : Text → List (List Text)
  | [] => if state.mode = .startRecord then [] else [state.endField.fields]
  | char :: rest => (state.step char).1.toList ++ csvRecords (state.step char).2 rest

/-- `csv.reader` with the default dialect. -/
def csvReader (text : Text) : List (List Text) := csvRecords .start (universalNewlines text)

example : csvReader "a,\"b, \"\"c\"\"\",\r\n\nd".toList = [["a".toList, "b, \"c\"".toList, []], [], ["d".toList]] := by decide

end ActiveBgp.Python.Text

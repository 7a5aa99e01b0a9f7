import ActiveBgp.Bird.Reader
import ActiveBgp.Python.Regex
import ActiveBgp.Python.Collections

namespace ActiveBgp.Bird

open ActiveBgp.Python CachingBufferedLineReader

section Characters

/-- The blanks of a byte string, for `\s` and for `strip`. -/
def isSpace (char : Char) : Bool := char ∈ [' ', '\t', '\n', '\x0b', '\x0c', '\r']

def isWord (char : Char) : Bool := char.isAlphanum ∨ char = '_'

/-- What `.` matches. -/
def isInline (char : Char) : Bool := char ≠ '\n'

/-- `[0-9:-]` -/
def isSince (char : Char) : Bool := char.isDigit ∨ char = ':' ∨ char = '-'

def notColon (char : Char) : Bool := char ≠ ':'

def strip (text : Text) : Text := (text.dropWhile isSpace).rdropWhile isSpace

def rstrip (text : Text) : Text := text.rdropWhile isSpace

end Characters

/-- `m.group(name)`, where there may be no match. -/
def group (matched : Option Groups) (name : String) : Reading Text :=
  match matched.bind (·.group name.toList) with
  | some text => return text
  | none => throw (.raised .attributeError)

/-- `int(text)`. -/
def int (text : Text) : Reading Int :=
  match Text.toInt? text with
  | some value => return value
  | none => throw (.raised (.valueError text))

def normalizeDesc (string : Text) : Text := strip string

/-- The first blanks, `(?P<desc>[^:]+):` and more. -/
def described (blanks more : List Regex) : Regex :=
  .line (blanks ++ .named "desc" 1 notColon :: .literal [':'] :: more)

/-- `^\s+(?P<desc>[^:]+):\s+(?P<data>\d+)$` -/
def descColonInt : Regex := described [.many 1 isSpace] [.many 1 isSpace, .named "data" 1 Char.isDigit]

/-- `^\s+(?P<desc>[^:]+):(?P<data>.*)$` -/
def descColonStr : Regex := described [.many 1 isSpace] [.named "data" 0 isInline]

def parseDescColonInt : Reading (Text × Int) := do
  let line ← readline
  let m := descColonInt.match? line
  let desc ← group m "desc"
  let data ← group m "data"
  return (normalizeDesc desc, ← int data)

/-- The loop over the lines that start with two tabs. -/
def readContinuations : Nat → List Text → Reading (List Text)
  | 0, _ => throw .outOfFuel
  | rounds + 1, lines => do
      let line ← readline
      if line ≠ [] ∧ ['\t', '\t'] <+: line then
        readContinuations rounds (lines ++ [strip line])
      else
        return lines

def parseDescColonStr (limit : Nat) : Reading (Text × Text) := do
  let line := rstrip (← readline)
  let lines ← readContinuations limit [line]
  rewindLine
  let m := descColonStr.match? lines.flatten
  let data ← group m "data"
  let desc ← group m "desc"
  return (normalizeDesc desc, strip data)

/-- What the two parsers of single details return. -/
inductive Value where
  | int (value : Int)
  | str (value : Text)
deriving DecidableEq, Repr

section Loop

variable {ν : Type}

/-- The loop of `parse_desc_lines`, which stands at `line`. -/
def readDescLines (regex : Regex) (parsers : Text → Option (Reading (Text × ν))) (ignoreRegex : Option Regex) :
    Nat → Text → Dict Text ν → Reading (Dict Text ν)
  | 0, _, _ => throw .outOfFuel
  | rounds + 1, line, result => do
      if line = [] ∨ (ignoreRegex.bind (·.match? line)).isSome then
        rewindLine
        return result
      match regex.match? line with
      | none =>
          rewindLine
          return result
      | some m =>
          let desc ← group m "desc"
          rewindLine
          match parsers desc with
          | none => throw (.raised .keyError)
          | some parser =>
              let (key, value) ← parser
              let line ← readline
              readDescLines regex parsers ignoreRegex rounds line (result.set key value)

def parseDescLines (limit : Nat) (regex : Regex) (parsers : Text → Option (Reading (Text × ν)))
    (ignoreRegex : Option Regex) : Reading (Dict Text ν) := do
  let line ← readline
  readDescLines regex parsers ignoreRegex limit line .empty

end Loop

section Colons

def beforeColon (line : Text) : Text := line.takeWhile notColon

def afterColon (line : Text) : Text := (line.dropWhile notColon).tail

variable {front data : Text}

theorem beforeColon_append (free : ∀ char ∈ front, notColon char = true) (data : Text) :
    beforeColon (front ++ ':' :: data) = front := by
  rw [beforeColon, List.takeWhile_append_of_pos free]
  simp [notColon]

theorem afterColon_append (free : ∀ char ∈ front, notColon char = true) (data : Text) :
    afterColon (front ++ ':' :: data) = data := by
  rw [afterColon, List.dropWhile_append_of_pos free]
  simp [notColon]

theorem notColon_space {char : Char} (space : isSpace char = true) : notColon char = true := by
  rw [notColon, decide_eq_true_iff]
  rintro rfl
  exact absurd space (by decide)

theorem strip_append {spaces : Text} (blank : ∀ char ∈ spaces, isSpace char = true) (text : Text) :
    strip (spaces ++ text) = strip text := by
  rw [strip, strip, List.dropWhile_append_of_pos blank]

theorem strip_eq_self {text : Text} (ink : ∀ char ∈ text, isSpace char = false) : strip text = text := by
  have front : text.dropWhile isSpace = text := by
    cases text with
    | nil => rfl
    | cons char rest => simp [ink char List.mem_cons_self]
  rw [strip, front, List.rdropWhile_eq_self_iff]
  exact fun nonempty => by simp [ink _ (List.getLast_mem nonempty)]

theorem rstrip_append_cons {char : Char} (ink : isSpace char = false) (front data : Text) :
    rstrip (front ++ char :: data) = front ++ char :: rstrip data := by
  induction data using List.reverseRecOn with
  | nil => exact List.rdropWhile_concat_neg _ _ _ (by simp [ink])
  | append_singleton data last ih =>
      rw [rstrip] at ih
      rw [rstrip, rstrip, ← List.cons_append, ← List.append_assoc, List.rdropWhile_concat, List.rdropWhile_concat, ih]
      split <;> simp [rstrip]

/-- There is no newline before the last character. -/
def IsLine (line : Text) : Prop := '\n' ∉ line.dropLast

theorem newline_not_mem_rstrip {line : Text} (isLine : IsLine line) : '\n' ∉ rstrip line := by
  rcases List.eq_nil_or_concat line with rfl | ⟨body, last, rfl⟩
  · exact List.not_mem_nil
  · rw [IsLine, List.concat_eq_append, List.dropLast_concat] at isLine
    rw [rstrip, List.concat_eq_append, List.rdropWhile_concat]
    split
    · exact fun member => isLine ((List.rdropWhile_prefix isSpace _).subset member)
    · rename_i ink
      intro member
      rcases List.mem_append.mp member with inside | final
      · exact isLine inside
      · rw [List.mem_singleton] at final
        exact ink (by rw [← final]; decide)

theorem IsLine.suffix {line : Text} (isLine : IsLine line) {rest : Text} (suffix : rest <:+ line) : IsLine rest := by
  obtain ⟨front, rfl⟩ := suffix
  intro member
  have nonempty : rest ≠ [] := by
    rintro rfl
    simp at member
  rw [IsLine, List.dropLast_append_of_ne_nil nonempty] at isLine
  exact isLine (List.mem_append_right front member)

theorem newline_not_mem_strip {line : Text} (isLine : IsLine line) : '\n' ∉ strip line :=
  newline_not_mem_rstrip (isLine.suffix (List.dropWhile_suffix isSpace))

end Colons

section Matching

variable {text rest : Text} {groups : Groups}

theorem mem_run_described {more : List Regex} :
    (groups, rest) ∈ (described [.many 1 isSpace] more).run text ↔
      ∃ spaces desc data after, text = spaces ++ desc ++ ':' :: data ∧ (spaces ≠ [] ∧ ∀ char ∈ spaces, isSpace char = true) ∧
        (desc ≠ [] ∧ ∀ char ∈ desc, notColon char = true) ∧ (after, rest) ∈ (Regex.line more).run data ∧
        groups = ("desc".toList, desc) :: after := by
  simp only [described, List.cons_append, List.nil_append, Regex.mem_run_line_cons, Regex.mem_run_many, Regex.mem_run_named,
    Regex.mem_run_literal]
  constructor
  · rintro ⟨_, _, _, ⟨rfl, spaces, rfl, some_space, blank⟩, ⟨_, _, _, ⟨desc, rfl, rfl, some_desc, free⟩,
      ⟨_, data, after, ⟨rfl, rfl⟩, later, rfl⟩, rfl⟩, rfl⟩
    exact ⟨spaces, desc, data, _, by simp, ⟨List.ne_nil_of_length_pos some_space, blank⟩,
      ⟨List.ne_nil_of_length_pos some_desc, free⟩, later, rfl⟩
  · rintro ⟨spaces, desc, data, after, rfl, ⟨some_space, blank⟩, ⟨some_desc, free⟩, later, rfl⟩
    exact ⟨[], _, _, ⟨rfl, spaces, List.append_assoc _ _ _, List.length_pos_of_ne_nil some_space, blank⟩,
      ⟨_, _, _, ⟨desc, rfl, rfl, List.length_pos_of_ne_nil some_desc, free⟩, ⟨[], data, after, ⟨rfl, rfl⟩, later, rfl⟩, rfl⟩,
      rfl⟩

theorem beforeColon_described {spaces desc : Text} (blank : ∀ char ∈ spaces, isSpace char = true)
    (free : ∀ char ∈ desc, notColon char = true) : ∀ char ∈ spaces ++ desc, notColon char = true := by
  intro char member
  exact (List.mem_append.mp member).elim (fun space => notColon_space (blank char space)) (free char)

/-- A line whose description is not at its start, with data after the colon. -/
structure Described (line : Text) : Prop where
  colon : ∃ data, line = beforeColon line ++ ':' :: data
  desc : ∃ spaces desc, beforeColon line = spaces ++ desc ∧ spaces ≠ [] ∧ (∀ char ∈ spaces, isSpace char = true) ∧ desc ≠ []

theorem described_line {line : Text} (described : Described line) : line = beforeColon line ++ ':' :: afterColon line := by
  obtain ⟨data, split⟩ := described.colon
  have free : ∀ char ∈ beforeColon line, notColon char = true := fun char member => List.mem_takeWhile_imp member
  have same : afterColon line = data := by
    conv_lhs => rw [split, afterColon_append free]
  rw [same]
  exact split

/-- All matches have the description before the colon, apart from blanks, and the data after it. -/
theorem described_of_mem {more : List Regex} (matched : (groups, rest) ∈ (described [.many 1 isSpace] more).run text) :
    Described text ∧ ∃ desc after, groups = ("desc".toList, desc) :: after ∧ strip desc = strip (beforeColon text) ∧
      (after, rest) ∈ (Regex.line more).run (afterColon text) := by
  obtain ⟨spaces, desc, data, after, rfl, ⟨some_space, blank⟩, ⟨some_desc, free⟩, later, rfl⟩ := mem_run_described.mp matched
  have before := beforeColon_append (beforeColon_described blank free) data
  rw [before, afterColon_append (beforeColon_described blank free)]
  refine ⟨⟨⟨data, by rw [before]⟩, spaces, desc, before, some_space, blank, some_desc⟩, desc, after, rfl, ?_, later⟩
  exact (strip_append blank desc).symm

theorem mem_run_of_described {more : List Regex} (line : Described text) {after : Groups}
    (later : (after, rest) ∈ (Regex.line more).run (afterColon text)) :
    ∃ groups, (groups, rest) ∈ (described [.many 1 isSpace] more).run text := by
  obtain ⟨spaces, desc, before, some_space, blank, some_desc⟩ := line.desc
  have free : ∀ char ∈ desc, notColon char = true := by
    intro char member
    have inside : char ∈ beforeColon text := before ▸ List.mem_append_right spaces member
    exact List.mem_takeWhile_imp inside
  have whole := described_line line
  rw [before] at whole
  exact ⟨_, mem_run_described.mpr ⟨spaces, desc, _, after, whole, ⟨some_space, blank⟩, ⟨some_desc, free⟩, later, rfl⟩⟩

/-- The match that `re.match` finds for such a line. -/
theorem match?_described {more : List Regex} (line : Described text) {after : Groups}
    (later : (after, rest) ∈ (Regex.line more).run (afterColon text)) :
    ∃ desc tail rest', (described [.many 1 isSpace] more).match? text = some (("desc".toList, desc) :: tail) ∧
      strip desc = strip (beforeColon text) ∧ (tail, rest') ∈ (Regex.line more).run (afterColon text) := by
  obtain ⟨groups, found⟩ := mem_run_of_described line later
  obtain ⟨groups, matched⟩ := Option.isSome_iff_exists.mp (Regex.match?_isSome_iff.mpr ⟨groups, rest, found⟩)
  obtain ⟨rest', member⟩ := Regex.match?_mem matched
  obtain ⟨_, desc, tail, rfl, same, tailed⟩ := described_of_mem member
  exact ⟨desc, tail, rest', matched, same, tailed⟩

end Matching

section Parsers

variable {reader : CachingBufferedLineReader} {line : Text} {rest : List Text}

theorem group_head {name : String} {text : Text} {tail : Groups} :
    group (some ((name.toList, text) :: tail)) name reader = .ok (text, reader) := by
  simp [group, Groups.group]

theorem group_tail {name other : String} (different : other.toList ≠ name.toList) {text : Text} {tail : Groups} :
    group (some ((other.toList, text) :: tail)) name = group (some tail) name := by
  simp [group, Groups.group, different]

/-- The data of a number: blanks, digits and the end of the line. -/
def IsNumber (data : Text) : Prop :=
  ∃ blanks digits ending, data = blanks ++ digits ++ ending ∧ (blanks ≠ [] ∧ ∀ char ∈ blanks, isSpace char = true) ∧
    (digits ≠ [] ∧ ∀ char ∈ digits, char.isDigit = true) ∧ (ending = [] ∨ ending = ['\n'])

def number (data : Text) : Int := (Text.toInt? (strip data)).getD 0

theorem mem_run_number {data rest : Text} {after : Groups} :
    (after, rest) ∈ (Regex.line [.many 1 isSpace, .named "data" 1 Char.isDigit]).run data ↔
      ∃ blanks digits, data = blanks ++ digits ++ rest ∧ (blanks ≠ [] ∧ ∀ char ∈ blanks, isSpace char = true) ∧
        (digits ≠ [] ∧ ∀ char ∈ digits, char.isDigit = true) ∧ (rest = [] ∨ rest = ['\n']) ∧
        after = [("data".toList, digits)] := by
  simp only [Regex.mem_run_line_cons, Regex.mem_run_many, Regex.mem_run_named, Regex.mem_run_line_nil, Regex.mem_run_lineEnd]
  constructor
  · rintro ⟨_, _, _, ⟨rfl, blanks, rfl, some_blank, blank⟩, ⟨_, _, _, ⟨digits, rfl, rfl, some_digit, digit⟩,
      ⟨rfl, rfl, ends⟩, rfl⟩, rfl⟩
    exact ⟨blanks, digits, (List.append_assoc _ _ _).symm, ⟨List.ne_nil_of_length_pos some_blank, blank⟩,
      ⟨List.ne_nil_of_length_pos some_digit, digit⟩, ends, rfl⟩
  · rintro ⟨blanks, digits, rfl, ⟨some_blank, blank⟩, ⟨some_digit, digit⟩, ends, rfl⟩
    exact ⟨[], _, _, ⟨rfl, blanks, List.append_assoc _ _ _, List.length_pos_of_ne_nil some_blank, blank⟩,
      ⟨_, _, _, ⟨digits, rfl, rfl, List.length_pos_of_ne_nil some_digit, digit⟩, ⟨rfl, rfl, ends⟩, rfl⟩, rfl⟩

theorem isSpace_digit {char : Char} (digit : char.isDigit = true) : isSpace char = false := by
  have range : 48 ≤ char.toNat ∧ char.toNat ≤ 57 := Char.isDigit_iff_toNat.mp digit
  rw [isSpace, decide_eq_false_iff_not]
  intro space
  simp only [List.mem_cons, List.not_mem_nil, or_false] at space
  rcases space with rfl | rfl | rfl | rfl | rfl | rfl <;> simp at range

theorem strip_number {blanks digits ending : Text} (blank : ∀ char ∈ blanks, isSpace char = true)
    (digit : ∀ char ∈ digits, char.isDigit = true) (ends : ending = [] ∨ ending = ['\n']) :
    strip (blanks ++ digits ++ ending) = digits := by
  have ink {char : Char} (member : char ∈ digits) : isSpace char = false := isSpace_digit (digit char member)
  have front : (digits ++ ending).dropWhile isSpace = digits ++ ending ∨ digits = [] := by
    cases digits with
    | nil => exact .inr rfl
    | cons digit rest => exact .inl (by simp [ink List.mem_cons_self])
  have back : digits.rdropWhile isSpace = digits := by
    rw [List.rdropWhile_eq_self_iff]
    exact fun nonempty => by simp [ink (List.getLast_mem nonempty)]
  rw [List.append_assoc, strip_append blank, strip]
  rcases front with kept | rfl
  · rw [kept]
    rcases ends with rfl | rfl
    · rw [List.append_nil, back]
    · rw [List.rdropWhile_concat_pos _ _ _ (by decide), back]
  · rcases ends with rfl | rfl <;> decide

theorem parseDescColonInt_ok (pending : reader.Pending (line :: rest)) (described : Described line)
    (isNumber : IsNumber (afterColon line)) :
    ∃ after, parseDescColonInt reader = .ok ((strip (beforeColon line), number (afterColon line)), after) ∧
      after.Pending rest := by
  obtain ⟨blanks, digits, ending, data, blank, digit, ends⟩ := isNumber
  obtain ⟨desc, tail, rest', matched, same, found⟩ :=
    match?_described described (mem_run_number.mpr ⟨blanks, digits, data, blank, digit, ends, rfl⟩)
  obtain ⟨blanks', digits', data', ⟨_, blank'⟩, ⟨some_digit, digit'⟩, ends', rfl⟩ := mem_run_number.mp found
  obtain ⟨after, read, holding⟩ := pending.readline
  refine ⟨after, ?_, holding.pending⟩
  have value : int digits' after = .ok (number (afterColon line), after) := by
    rw [number, data', strip_number blank' digit' ends', int, Text.toInt?_digits digit' some_digit]
    rfl
  rw [parseDescColonInt, bind_ok_iff]
  refine ⟨line, after, read, bind_ok_iff.mpr ⟨desc, after, ?_, bind_ok_iff.mpr ⟨digits', after, ?_, ?_⟩⟩⟩
  · rw [descColonInt, matched, group_head]
  · rw [descColonInt, matched, group_tail (by decide), group_head]
  · exact bind_ok_iff.mpr ⟨_, after, value, by rw [normalizeDesc, same]; rfl⟩

def isContinuation (line : Text) : Bool := ['\t', '\t'] <+: line

/-- The lines that start with two tabs are read, with the line after them. -/
theorem readContinuations_ok {lines : List Text} (rounds : Nat) (before : List Text) (pending : reader.Pending lines)
    (enough : (lines.takeWhile isContinuation).length < rounds) :
    ∃ after, readContinuations rounds before reader =
        .ok (before ++ (lines.takeWhile isContinuation).map strip, after) ∧
      after.Holding (lines.dropWhile isContinuation) := by
  induction rounds generalizing before reader lines with
  | zero => cases enough
  | succ rounds ih =>
      obtain ⟨middle, read, holding⟩ := pending.readline
      cases lines with
      | nil => exact ⟨middle, by simp [readContinuations, bind_ok_iff, read], holding⟩
      | cons line rest =>
          have nonempty : line ≠ [] := fun empty => pending.1 (empty ▸ List.mem_cons_self)
          have read : readline reader = .ok (line, middle) := read
          by_cases tabs : isContinuation line = true
          · rw [List.takeWhile_cons_of_pos tabs, List.length_cons, Nat.add_lt_add_iff_right] at enough
            obtain ⟨after, returns, held⟩ := ih (before ++ [strip line]) holding.pending enough
            refine ⟨after, ?_, by rwa [List.dropWhile_cons_of_pos tabs]⟩
            rw [readContinuations, bind_ok_iff]
            refine ⟨line, middle, read, ?_⟩
            rw [if_pos ⟨nonempty, by simpa [isContinuation] using tabs⟩, List.takeWhile_cons_of_pos tabs]
            simpa using returns
          · refine ⟨middle, ?_, by rwa [List.dropWhile_cons_of_neg tabs]⟩
            rw [readContinuations, bind_ok_iff]
            refine ⟨line, middle, read, ?_⟩
            rw [if_neg (by simpa [isContinuation, nonempty] using tabs), List.takeWhile_cons_of_neg tabs]
            simp

theorem mem_run_data {data rest : Text} {after : Groups} (inline : '\n' ∉ data) :
    (after, rest) ∈ (Regex.line [.named "data" 0 isInline]).run data ↔ rest = [] ∧ after = [("data".toList, data)] := by
  simp only [Regex.mem_run_line_cons, Regex.mem_run_named, Regex.mem_run_line_nil, Regex.mem_run_lineEnd]
  constructor
  · rintro ⟨_, _, _, ⟨taken, rfl, rfl, _, _⟩, ⟨rfl, rfl, rfl | rfl⟩, rfl⟩
    · exact ⟨rfl, by simp⟩
    · simp at inline
  · rintro ⟨rfl, rfl⟩
    refine ⟨_, _, _, ⟨data, rfl, (List.append_nil data).symm, Nat.zero_le _, fun char member => ?_⟩, ⟨rfl, rfl, .inl rfl⟩, rfl⟩
    rw [isInline, decide_eq_true_iff]
    exact fun newline => inline (newline ▸ member)

/-- The data of a text: what follows the colon, and the lines that continue it. -/
def joined (data : Text) (continuations : List Text) : Text :=
  strip (rstrip data ++ (continuations.map strip).flatten)

theorem parseDescColonStr_ok {limit : Nat} (pending : reader.Pending (line :: rest)) (described : Described line)
    (isLine : ∀ line' ∈ line :: rest, IsLine line') (enough : (rest.takeWhile isContinuation).length < limit) :
    ∃ after, parseDescColonStr limit reader =
        .ok ((strip (beforeColon line), joined (afterColon line) (rest.takeWhile isContinuation)), after) ∧
      after.Pending (rest.dropWhile isContinuation) := by
  obtain ⟨middle, read, holding⟩ := pending.readline
  obtain ⟨after, returns, held⟩ := readContinuations_ok limit [rstrip line] holding.pending enough
  have free : ∀ char ∈ beforeColon line, notColon char = true := fun char member => List.mem_takeWhile_imp member
  obtain ⟨buf, whole⟩ : ∃ buf, buf = rstrip (afterColon line) ++ ((rest.takeWhile isContinuation).map strip).flatten := ⟨_, rfl⟩
  have stripped : rstrip line = beforeColon line ++ ':' :: rstrip (afterColon line) := by
    conv_lhs => rw [described_line described]
    exact rstrip_append_cons (by decide) _ _
  have text : ([rstrip line] ++ (rest.takeWhile isContinuation).map strip).flatten = beforeColon line ++ ':' :: buf := by
    rw [stripped, whole]
    simp
  have inline : '\n' ∉ buf := by
    have suffix : afterColon line <:+ line := (List.tail_suffix _).trans (List.dropWhile_suffix _)
    rw [whole, List.mem_append, not_or]
    refine ⟨newline_not_mem_rstrip ((isLine line List.mem_cons_self).suffix suffix), ?_⟩
    simp only [List.mem_flatten, List.mem_map, not_exists, not_and]
    rintro _ ⟨more, member, rfl⟩
    exact newline_not_mem_strip (isLine more (List.mem_cons_of_mem line ((List.takeWhile_subset _) member)))
  have before := beforeColon_append free buf
  have after_eq := afterColon_append free buf
  have joinedDescribed : Described (beforeColon line ++ ':' :: buf) := ⟨⟨buf, by rw [before]⟩, by rw [before]; exact described.desc⟩
  obtain ⟨desc, tail, _, matched, same, found⟩ := match?_described joinedDescribed
    (by rw [after_eq]; exact (mem_run_data inline).mpr ⟨rfl, rfl⟩)
  rw [after_eq] at found
  obtain ⟨_, rfl⟩ := (mem_run_data inline).mp found
  rw [before] at same
  refine ⟨{ after with read := false }, ?_, held.rewind⟩
  rw [parseDescColonStr, bind_ok_iff]
  refine ⟨line, middle, read, bind_ok_iff.mpr ⟨_, after, returns, bind_ok_iff.mpr ⟨(), _, rfl, ?_⟩⟩⟩
  rw [List.tail_cons, text, descColonStr, matched]
  refine bind_ok_iff.mpr ⟨buf, _, by rw [group_tail (by decide), group_head], bind_ok_iff.mpr ⟨desc, _, group_head, ?_⟩⟩
  rw [normalizeDesc, same, joined, whole]
  rfl

end Parsers

end ActiveBgp.Bird

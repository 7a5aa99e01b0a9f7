import ActiveBgp.Python.Collections
import ActiveBgp.Python.Text

namespace ActiveBgp.Shell

open ActiveBgp.Python

/-! # Words, options and files of a shell script

An unquoted expansion is split on blanks, and a word that looks like a pattern is
replaced by the files that match it.  A quote that comes out of an expansion is a
character like any other.
-/

section Words

def isSeparator (char : Char) : Bool := char ∈ [' ', '\t', '\n']

def splitWords (text : Text) : List Text := (text.splitOnP isSeparator).filter (· ≠ [])

def isSpecial (char : Char) : Bool := char ∈ ['*', '?', '[', '\\']

/-- The words of an unquoted expansion; `glob` gives the files that match a pattern, or the pattern itself. -/
def words (glob : Text → List Text) (text : Text) : List Text :=
  (splitWords text).flatMap fun word => if word.any isSpecial then glob word else [word]

variable {text word : Text} {char : Char}

theorem mem_of_mem_splitOnP {p : Char → Bool} (inside : word ∈ text.splitOnP p) (member : char ∈ word) : char ∈ text := by
  induction text generalizing word with
  | nil =>
      obtain rfl : word = [] := by simpa using inside
      exact member
  | cons first rest ih =>
      rw [List.splitOnP_cons_eq_if_modifyHead] at inside
      split at inside
      · rcases List.mem_cons.mp inside with rfl | later
        · simp at member
        · exact List.mem_cons_of_mem _ (ih later member)
      · obtain ⟨head, others, split⟩ := List.exists_cons_of_ne_nil (List.splitOnP_ne_nil p rest)
        rw [split, List.modifyHead_cons] at inside
        rcases List.mem_cons.mp inside with rfl | later
        · rcases List.mem_cons.mp member with rfl | old
          · exact List.mem_cons_self
          · exact List.mem_cons_of_mem _ (ih (by simp [split]) old)
        · exact List.mem_cons_of_mem _ (ih (by simp [split, later]) member)

theorem words_plain (glob : Text → List Text) (plain : ∀ char ∈ text, isSpecial char = false) :
    words glob text = splitWords text := by
  have kept : ∀ word ∈ splitWords text, (if word.any isSpecial then glob word else [word]) = [word] := by
    intro word inside
    have ordinary : word.any isSpecial = false := by
      rw [List.any_eq_false]
      intro char member
      simpa using plain char (mem_of_mem_splitOnP (List.mem_of_mem_filter inside) member)
    rw [ordinary]
    rfl
  rw [words, List.flatMap_congr kept, List.flatMap_singleton']

/-- A text that does not start with a blank starts with its first word. -/
theorem splitWords_cons (dark : isSeparator char = false) (text : Text) :
    ∃ word others, splitWords (char :: text) = (char :: word) :: others := by
  obtain ⟨head, others, split⟩ := List.exists_cons_of_ne_nil (List.splitOnP_ne_nil isSeparator text)
  refine ⟨head, others.filter (· ≠ []), ?_⟩
  simp [splitWords, List.splitOnP_cons_eq_if_modifyHead, dark, split]

theorem ordinary_numeric (numeric : Text.Numeric text) : ∀ char ∈ text, isSpecial char = false := by
  have outside : ∀ char ∈ ['*', '?', '[', '\\'], char.isDigit = false ∧ char ∉ ['-', '+', '.', 'e'] := by
    simp only [List.forall_mem_cons, List.not_mem_nil, false_imp_iff, implies_true, and_true]
    decide
  intro char member
  by_contra special
  exact numeric.not_mem (outside char (of_decide_eq_true (Bool.not_eq_false _ ▸ special))) member

theorem dark_numeric (numeric : Text.Numeric text) : ∀ char ∈ text, isSeparator char = false := by
  have outside : ∀ char ∈ [' ', '\t', '\n'], char.isDigit = false ∧ char ∉ ['-', '+', '.', 'e'] := by
    simp only [List.forall_mem_cons, List.not_mem_nil, false_imp_iff, implies_true, and_true]
    decide
  intro char member
  by_contra separator
  exact numeric.not_mem (outside char (of_decide_eq_true (Bool.not_eq_false _ ▸ separator))) member

theorem splitWords_intercalate {items : List Text}
    (dark : ∀ item ∈ items, item ≠ [] ∧ ∀ char ∈ item, isSeparator char = false) :
    splitWords ([' '].intercalate items) = items := by
  induction items with
  | nil => simp [splitWords]
  | cons item rest ih =>
      obtain ⟨⟨nonempty, whole⟩, later⟩ := List.forall_mem_cons.mp dark
      cases rest with
      | nil => simp [splitWords, List.splitOnP_eq_singleton whole, nonempty]
      | cons second others =>
          have remaining := ih later
          unfold splitWords at remaining ⊢
          rw [List.intercalate_cons_cons, List.append_assoc, List.singleton_append,
            List.splitOnP_append_cons_of_forall_mem whole ' ' (by decide), List.filter_cons_of_pos (by simpa using nonempty),
            remaining]

end Words

section Options

def unsigned? (digits : Text) : Option Nat :=
  if digits ≠ [] ∧ digits.all Char.isDigit then some (Nat.ofDigitChars 10 digits 0) else none

/-- What the command `[` takes for a number; it has 64 bits. -/
def integer? (word : Text) : Option Int :=
  let value := match word with
    | '-' :: digits => (unsigned? digits).map fun value : Nat => -(value : Int)
    | '+' :: digits => (unsigned? digits).map fun value : Nat => (value : Int)
    | digits => (unsigned? digits).map fun value : Nat => (value : Int)
  value.filter fun value => -9223372036854775808 ≤ value ∧ value < 9223372036854775808

/-- A decimal constant of an arithmetic expression; with a leading zero it would be octal. -/
def constant? : Text → Option Int
  | '-' :: digits => (magnitude? digits).map fun value : Nat => -(value : Int)
  | digits => (magnitude? digits).map fun value : Nat => (value : Int)
where
  magnitude? (digits : Text) : Option Nat :=
    if digits.head? = some '0' ∧ digits ≠ ['0'] then none else (unsigned? digits).filter (· < 9223372036854775808)

theorem unsigned?_spec {digits : Text} {value : Nat} (read : unsigned? digits = some value) :
    digits ≠ [] ∧ ∀ char ∈ digits, char.isDigit = true := by
  unfold unsigned? at read
  split at read
  · rename_i all
    exact ⟨all.1, List.all_eq_true.mp all.2⟩
  · contradiction

theorem magnitude?_spec {digits : Text} {value : Nat} (read : constant?.magnitude? digits = some value) :
    unsigned? digits = some value ∧ value < 9223372036854775808 := by
  unfold constant?.magnitude? at read
  split at read
  · contradiction
  · simpa [Option.filter_eq_some_iff] using read

/-- A constant is a number for `[` as well. -/
theorem constant?_spec {text : Text} {value : Int} (constant : constant? text = some value) :
    text ≠ [] ∧ Text.Numeric text ∧ integer? text = some value := by
  unfold constant? at constant
  split at constant
  · rename_i digits
    obtain ⟨size, magnitude, rfl⟩ := Option.map_eq_some_iff.mp constant
    obtain ⟨read, small⟩ := magnitude?_spec magnitude
    have all := (unsigned?_spec read).2
    refine ⟨by simp, List.forall_mem_cons.mpr ⟨.inr (by simp), fun char member => .inl (all char member)⟩, ?_⟩
    simp only [integer?, read, Option.map_some, Option.filter_eq_some_iff, decide_eq_true_eq, true_and]
    omega
  · obtain ⟨size, magnitude, rfl⟩ := Option.map_eq_some_iff.mp constant
    obtain ⟨read, small⟩ := magnitude?_spec magnitude
    obtain ⟨nonempty, all⟩ := unsigned?_spec read
    refine ⟨nonempty, fun char member => .inl (all char member), ?_⟩
    have unsignedRead : integer? text =
        ((some (size : Int)).filter fun value => -9223372036854775808 ≤ value ∧ value < 9223372036854775808) := by
      unfold integer?
      split
      · exact absurd (all '-' List.mem_cons_self) (by decide)
      · exact absurd (all '+' List.mem_cons_self) (by decide)
      · rw [read]
        rfl
    rw [unsignedRead]
    simp only [Option.filter_eq_some_iff, decide_eq_true_eq, true_and]
    omega

/-- The options that `getopts` finds, all of which take an argument, and the operands after
them.  The option `?` stands for an error, and is the last one. -/
def getopts (letters : List Char) : List Text → List (Char × Text) × List Text
  | [] => ([], [])
  | ('-' :: letter :: value) :: args =>
      if letter = '-' ∧ value = [] then ([], args)
      else if letter ∉ letters then ([('?', [])], [])
      else if value ≠ [] then
        let (options, operands) := getopts letters args
        ((letter, value) :: options, operands)
      else match args with
        | [] => ([('?', [])], [])
        | optarg :: rest =>
            let (options, operands) := getopts letters rest
            ((letter, optarg) :: options, operands)
  | args => ([], args)

variable {letters : List Char} {letter : Char}

theorem getopts_option (known : letter ∈ letters) (notDash : letter ≠ '-') (optarg : Text) (rest : List Text) :
    getopts letters (['-', letter] :: optarg :: rest) =
      ((letter, optarg) :: (getopts letters rest).1, (getopts letters rest).2) := by
  rw [getopts, if_neg (fun both => notDash both.1), if_neg (not_not.mpr known), if_neg (not_not.mpr rfl)]

theorem getopts_operand {operand : Text} (notOption : operand.head? ≠ some '-') (rest : List Text) :
    getopts letters (operand :: rest) = ([], operand :: rest) := by
  rw [getopts]
  · simp
  · rintro letter value args same
    simp [(List.cons.inj same).1] at notOption

end Options

section Files

abbrev Files := Dict Text Text

/-- `echo "line" > file` -/
def overwrite (file line : Text) (files : Files) : Files := files.set file (line ++ ['\n'])

/-- `echo "line" >> file` -/
def append (file line : Text) (files : Files) : Files :=
  files.set file ((files.get? file).getD [] ++ line ++ ['\n'])

def appendLines (file : Text) (lines : List Text) (files : Files) : Files :=
  lines.foldl (fun files line => append file line files) files

def fileText (lines : List Text) : Text := lines.flatMap fun line => line ++ ['\n']

variable {file other content : Text} {files : Files}

theorem get?_overwrite (file line : Text) (files : Files) :
    (overwrite file line files).get? file = some (line ++ ['\n']) := by
  simp [overwrite]

theorem get?_overwrite_ne (different : file ≠ other) (line : Text) (files : Files) :
    (overwrite file line files).get? other = files.get? other :=
  Dict.get?_set_ne files _ different

theorem get?_appendLines (found : files.get? file = some content) (lines : List Text) :
    (appendLines file lines files).get? file = some (content ++ fileText lines) := by
  induction lines generalizing files content with
  | nil => simpa [appendLines, fileText] using found
  | cons line rest ih =>
      have appended : (append file line files).get? file = some (content ++ (line ++ ['\n'])) := by
        simp [append, found]
      refine (ih appended).trans ?_
      simp [fileText]

theorem get?_appendLines_ne (different : file ≠ other) (lines : List Text) (files : Files) :
    (appendLines file lines files).get? other = files.get? other := by
  induction lines generalizing files with
  | nil => rfl
  | cons line rest ih => exact (ih (append file line files)).trans (Dict.get?_set_ne files _ different)

theorem char_of_fileText {common : List Text} {opening rest tail : Text} {more later : List Text} {char first : Char}
    (same : fileText (common ++ (opening ++ char :: rest) :: more) =
      fileText (common ++ (opening ++ first :: tail) :: later)) : char = first := by
  simp only [fileText, List.flatMap_append, List.flatMap_cons, List.append_assoc, List.cons_append] at same
  exact (List.cons.inj (List.append_cancel_left (List.append_cancel_left same))).1

end Files

end ActiveBgp.Shell

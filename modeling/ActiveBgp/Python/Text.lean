import Mathlib.Data.List.DropRight
import Mathlib.Data.Int.Notation
import Mathlib.Tactic.Common

namespace ActiveBgp.Python

/-! # Python's strings and the text of integers

A string is its list of characters.  `sep.join` is `List.intercalate` and
`split` on one character is `List.splitOn`; their round trips come from the
library.  What is defined here is `str` and `int` on integers.
-/

abbrev Text := List Char

instance : LawfulBEq Text := inferInstance

section Separators

variable {α : Type} {item : α} {first second rest others : List α}

theorem append_cons_inj (outside : item ∉ first) (absent : item ∉ second)
    (same : first ++ item :: rest = second ++ item :: others) : first = second ∧ rest = others := by
  induction first generalizing second with
  | nil =>
      cases second with
      | nil => exact ⟨rfl, (List.cons.inj same).2⟩
      | cons other second => exact absurd (by simp [(List.cons.inj same).1]) absent
  | cons one first ih =>
      cases second with
      | nil => exact absurd (by simp [(List.cons.inj same).1]) outside
      | cons other second =>
          obtain ⟨rfl, tails⟩ := List.cons.inj same
          obtain ⟨rfl, rest⟩ := ih (fun inside => outside (by simp [inside])) (fun inside => absent (by simp [inside])) tails
          exact ⟨rfl, rest⟩

theorem append_cons_inj_last (outside : item ∉ rest) (absent : item ∉ others)
    (same : first ++ item :: rest = second ++ item :: others) : first = second ∧ rest = others := by
  have mirrored : rest.reverse ++ item :: first.reverse = others.reverse ++ item :: second.reverse := by
    simpa using congrArg List.reverse same
  obtain ⟨ends, starts⟩ := append_cons_inj (by simpa using outside) (by simpa using absent) mirrored
  exact ⟨List.reverse_injective starts, List.reverse_injective ends⟩

end Separators

namespace Text

/-- The code points of the zeros of Unicode's decimal digit blocks. -/
def digitZeros : List Nat :=
  [0x30, 0x660, 0x6f0, 0x7c0, 0x966, 0x9e6, 0xa66, 0xae6, 0xb66, 0xbe6, 0xc66, 0xce6, 0xd66,
    0xde6, 0xe50, 0xed0, 0xf20, 0x1040, 0x1090, 0x17e0, 0x1810, 0x1946, 0x19d0, 0x1a80, 0x1a90,
    0x1b50, 0x1bb0, 0x1c40, 0x1c50, 0xa620, 0xa8d0, 0xa900, 0xa9d0, 0xa9f0, 0xaa50, 0xabf0,
    0xff10, 0x104a0, 0x10d30, 0x11066, 0x110f0, 0x11136, 0x111d0, 0x112f0, 0x11450, 0x114d0,
    0x11650, 0x116c0, 0x11730, 0x118e0, 0x11950, 0x11c50, 0x11d50, 0x11da0, 0x16a60, 0x16b50,
    0x1d7ce, 0x1d7d8, 0x1d7e2, 0x1d7ec, 0x1d7f6, 0x1e140, 0x1e2f0, 0x1e950, 0x1fbf0]

def digitValue (char : Char) : Option Nat :=
  (digitZeros.find? fun base => base ≤ char.toNat ∧ char.toNat < base + 10).map (char.toNat - ·)

/-- The code points that `int` strips from both ends of its argument. -/
def isSpace (char : Char) : Bool :=
  (9 ≤ char.toNat ∧ char.toNat ≤ 13) ∨ (0x2000 ≤ char.toNat ∧ char.toNat ≤ 0x200a) ∨
    char.toNat ∈ [0x20, 0x85, 0xa0, 0x1680, 0x2028, 0x2029, 0x202f, 0x205f, 0x3000]

/-- Decimal digits with single underscores between them, most significant
first.  `afterDigit` tells whether an underscore, or the end, may stand here. -/
def digitsValue (value : Nat) (afterDigit : Bool) : Text → Option Nat
  | [] => if afterDigit then some value else none
  | char :: rest =>
      if char = '_' then if afterDigit then digitsValue value false rest else none
      else match digitValue char with
        | some digit => digitsValue (value * 10 + digit) true rest
        | none => none

def strip (text : Text) : Text :=
  (text.dropWhile isSpace).rdropWhile isSpace

/-- `int(text)`, or `none` where it raises `ValueError`. -/
def toInt? (text : Text) : Option Int :=
  match strip text with
  | '-' :: digits => (digitsValue 0 false digits).map fun value : Nat => -(value : Int)
  | '+' :: digits => (digitsValue 0 false digits).map Int.ofNat
  | digits => (digitsValue 0 false digits).map Int.ofNat

def ofNat (value : Nat) : Text := Nat.toDigits 10 value

def ofInt : Int → Text
  | .ofNat value => ofNat value
  | .negSucc value => '-' :: ofNat (value + 1)

theorem digitValue_ascii {char : Char} (digit : char.isDigit = true) :
    digitValue char = some (char.toNat - 48) := by
  have range : 48 ≤ char.toNat ∧ char.toNat ≤ 57 := Char.isDigit_iff_toNat.mp digit
  have first : (48 : Nat) ≤ char.toNat ∧ char.toNat < 48 + 10 := by omega
  simp [digitValue, digitZeros, first]

theorem isSpace_digit {char : Char} (digit : char.isDigit = true) : isSpace char = false := by
  have range : 48 ≤ char.toNat ∧ char.toNat ≤ 57 := Char.isDigit_iff_toNat.mp digit
  simp [isSpace]
  omega

theorem isDigit_of_mem_ofNat {char : Char} {value : Nat} (member : char ∈ ofNat value) :
    char.isDigit = true :=
  Nat.isDigit_of_mem_toDigits (by decide) (by decide) member

theorem ofNat_ne_nil (value : Nat) : ofNat value ≠ [] := Nat.toDigits_ne_nil

theorem digitsValue_digits {digits : Text} (all : ∀ char ∈ digits, char.isDigit = true)
    (nonempty : digits ≠ []) (value : Nat) (afterDigit : Bool) :
    digitsValue value afterDigit digits = some (Nat.ofDigitChars 10 digits value) := by
  induction digits generalizing value afterDigit with
  | nil => exact (nonempty rfl).elim
  | cons char rest ih =>
      have digit := all char (by simp)
      have notUnderscore : char ≠ '_' := by rintro rfl; simp at digit
      simp only [digitsValue, if_neg notUnderscore, digitValue_ascii digit, Nat.ofDigitChars_cons]
      cases rest with
      | nil => simp [digitsValue, Nat.mul_comm]
      | cons next tail =>
          rw [ih (fun later member => all later (by simp [member])) (by simp)]
          simp [Nat.mul_comm]

theorem digitsValue_ofNat (value : Nat) : digitsValue 0 false (ofNat value) = some value := by
  rw [digitsValue_digits (fun _ => isDigit_of_mem_ofNat) (ofNat_ne_nil value)]
  exact congrArg some Nat.ofDigitChars_ten_toDigits

theorem strip_eq_self {text : Text} (first : ∀ char ∈ text.head?, isSpace char = false)
    (last : ∀ char ∈ text.getLast?, isSpace char = false) : strip text = text := by
  have front : text.dropWhile isSpace = text := by
    cases text with
    | nil => rfl
    | cons char rest => simp [first char (by simp)]
  rw [strip, front, List.rdropWhile_eq_self_iff]
  intro nonempty
  simp [last _ (List.getLast?_eq_some_getLast nonempty)]

theorem toInt?_digits {digits : Text} (all : ∀ char ∈ digits, char.isDigit = true) (nonempty : digits ≠ []) :
    toInt? digits = some (Nat.ofDigitChars 10 digits 0 : Int) := by
  have kept : strip digits = digits := strip_eq_self
    (fun char member => isSpace_digit (all char (List.mem_of_mem_head? member)))
    (fun char member => isSpace_digit (all char (List.mem_of_mem_getLast? member)))
  rw [toInt?, kept]
  split
  · simpa using all '-' (by simp)
  · simpa using all '+' (by simp)
  · rw [digitsValue_digits all nonempty]
    rfl

theorem toInt?_ofNat (value : Nat) : toInt? (ofNat value) = some (value : Int) := by
  rw [toInt?_digits (fun _ => isDigit_of_mem_ofNat) (ofNat_ne_nil value)]
  exact congrArg (some ∘ Nat.cast) Nat.ofDigitChars_ten_toDigits

theorem toInt?_ofInt (value : Int) : toInt? (ofInt value) = some value := by
  cases value with
  | ofNat value => exact toInt?_ofNat value
  | negSucc value =>
      have digits : ∀ char ∈ ofNat (value + 1), char.isDigit = true := fun _ => isDigit_of_mem_ofNat
      have kept : strip ('-' :: ofNat (value + 1)) = '-' :: ofNat (value + 1) := by
        refine strip_eq_self (by simp; decide) ?_
        intro char member
        rw [List.getLast?_cons_of_ne_nil (ofNat_ne_nil _)] at member
        exact isSpace_digit (digits char (List.mem_of_mem_getLast? member))
      simp only [ofInt, toInt?, kept, digitsValue_ofNat]
      rfl

/-- Characters that cannot occur in a text that `int` accepts. -/
def OutsideInt (char : Char) : Prop :=
  isSpace char = false ∧ digitValue char = none ∧ char ∉ ['-', '+', '_']

instance (char : Char) : Decidable (OutsideInt char) := by unfold OutsideInt; infer_instance

theorem digitsValue_excludes {char : Char} (outside : OutsideInt char) {digits : Text}
    {value result : Nat} {afterDigit : Bool}
    (parsed : digitsValue value afterDigit digits = some result) : char ∉ digits := by
  induction digits generalizing value afterDigit with
  | nil => simp
  | cons first rest ih =>
      obtain ⟨_, noDigit, noSign⟩ := outside
      simp only [digitsValue] at parsed
      split at parsed
      · rename_i underscore
        split at parsed
        · have tail := ih parsed
          simp_all
        · contradiction
      · split at parsed
        · rename_i digit found
          have tail := ih parsed
          have different : char ≠ first := by rintro rfl; simp [noDigit] at found
          simp [different, tail]
        · contradiction

theorem mem_strip {char : Char} (notSpace : isSpace char = false) {text : Text}
    (member : char ∈ text) : char ∈ strip text := by
  have front : char ∈ text.dropWhile isSpace := by
    rw [← List.takeWhile_append_dropWhile (p := isSpace) (l := text)] at member
    rcases List.mem_append.mp member with early | late
    · simp [List.mem_takeWhile_imp early] at notSpace
    · exact late
  rw [strip, List.rdropWhile, List.mem_reverse]
  rw [← List.mem_reverse,
    ← List.takeWhile_append_dropWhile (p := isSpace) (l := (text.dropWhile isSpace).reverse)] at front
  rcases List.mem_append.mp front with early | late
  · simp [List.mem_takeWhile_imp early] at notSpace
  · exact late

/-- Separators survive: a text that `int` accepts has no comma, colon or the like in it. -/
theorem toInt?_excludes {char : Char} (outside : OutsideInt char) {text : Text} {value : Int}
    (parsed : toInt? text = some value) : char ∉ text := by
  intro member
  have kept := mem_strip outside.1 member
  have noSign := outside.2.2
  rw [toInt?] at parsed
  split at parsed
  · rename_i digits same
    obtain ⟨result, found, _⟩ := Option.map_eq_some_iff.mp parsed
    have absent := digitsValue_excludes outside found
    rw [same] at kept
    simp_all
  · rename_i digits same
    obtain ⟨result, found, _⟩ := Option.map_eq_some_iff.mp parsed
    have absent := digitsValue_excludes outside found
    rw [same] at kept
    simp_all
  · obtain ⟨result, found, _⟩ := Option.map_eq_some_iff.mp parsed
    exact digitsValue_excludes outside found kept

theorem ofInt_ne_nil (value : Int) : ofInt value ≠ [] := by
  cases value with
  | ofNat value => exact ofNat_ne_nil value
  | negSucc value => simp [ofInt]

theorem ofInt_injective : Function.Injective ofInt := by
  intro left right same
  have parsed := congrArg toInt? same
  simpa only [toInt?_ofInt, Option.some.injEq] using parsed

theorem not_mem_ofInt {char : Char} (outside : OutsideInt char) (value : Int) :
    char ∉ ofInt value :=
  toInt?_excludes outside (toInt?_ofInt value)

/-- The characters in which numbers are printed. -/
def Numeric (text : Text) : Prop := ∀ char ∈ text, char.isDigit = true ∨ char ∈ ['-', '+', '.', 'e']

instance (text : Text) : Decidable (Numeric text) := List.decidableBAll _ _

theorem Numeric.not_mem {text : Text} (numeric : Numeric text) {char : Char}
    (other : char.isDigit = false ∧ char ∉ ['-', '+', '.', 'e']) : char ∉ text := by
  intro member
  rcases numeric char member with digit | sign
  · rw [other.1] at digit
    contradiction
  · exact other.2 sign

theorem Numeric.ascii {text : Text} (numeric : Numeric text) : ∀ char ∈ text, char.toNat < 128 := by
  intro char member
  rcases numeric char member with digit | sign
  · have range : 48 ≤ char.toNat ∧ char.toNat ≤ 57 := Char.isDigit_iff_toNat.mp digit
    omega
  · simp only [List.mem_cons, List.not_mem_nil, or_false] at sign
    rcases sign with rfl | rfl | rfl | rfl <;> decide

theorem numeric_ofInt (value : Int) : Numeric (ofInt value) := by
  intro char member
  cases value with
  | ofNat value => exact .inl (isDigit_of_mem_ofNat member)
  | negSucc value =>
      rcases List.mem_cons.mp member with rfl | digit
      · exact .inr (by simp)
      · exact .inl (isDigit_of_mem_ofNat digit)

theorem not_mem_ofInt_of_nonneg {value : Int} (nonneg : 0 ≤ value) : '-' ∉ ofInt value := by
  cases value with
  | ofNat value => exact fun member => by simpa using isDigit_of_mem_ofNat member
  | negSucc value => exact absurd nonneg (by omega)

theorem splitOn_pair {separator : Char} {left right : Text} (leftFree : separator ∉ left)
    (rightFree : separator ∉ right) :
    (left ++ separator :: right).splitOn separator = [left, right] := by
  have joined : [separator].intercalate [left, right] = left ++ separator :: right := by
    simp [List.intercalate]
  rw [← joined]
  exact List.splitOn_intercalate separator (by simp [leftFree, rightFree]) (by simp)

theorem not_mem_intercalate {separator char : Char} {texts : List Text}
    (free : ∀ text ∈ texts, char ∉ text) (different : char ≠ separator) :
    char ∉ [separator].intercalate texts := by
  induction texts with
  | nil => simp
  | cons first rest ih =>
      cases rest with
      | nil => simpa using free first (by simp)
      | cons second tail =>
          have later := ih fun text member => free text (by simp [member])
          rw [List.intercalate_cons_cons]
          simp [free first (by simp), different, later]

theorem intercalate_ne_nil {separator : Text} {texts : List Text} (nonempty : texts ≠ [])
    (filled : ∀ text ∈ texts, text ≠ []) : separator.intercalate texts ≠ [] := by
  obtain ⟨text, rest, rfl⟩ := List.exists_cons_of_ne_nil nonempty
  obtain ⟨char, tail, same⟩ := List.exists_cons_of_ne_nil (filled text (by simp))
  cases rest <;> simp [same, List.intercalate_cons_cons]

/-- Numbers that are joined by dashes or dots look like one number. -/
theorem numeric_intercalate {separator : Char} (printed : separator ∈ ['-', '+', '.', 'e']) {texts : List Text}
    (numeric : ∀ text ∈ texts, Numeric text) : Numeric ([separator].intercalate texts) := by
  intro char member
  by_contra other
  simp only [not_or] at other
  refine not_mem_intercalate (fun text inside among => ?_) ?_ member
  · exact (numeric text inside char among).elim other.1 other.2
  · intro same
    exact other.2 (same ▸ printed)

section Joined

variable {separator : Char} (notDigit : separator.isDigit = false)

/-- What may follow a number in a joined text: nothing, or a separator. -/
def Separated (separator : Char) (rest : Text) : Prop := ∀ char ∈ rest.head?, char = separator

theorem separated_flatMap (numbers : List Int) :
    Separated separator (numbers.flatMap fun number => separator :: ofInt number) := by
  cases numbers <;> simp [Separated]

include notDigit

theorem takeWhile_ofNat_append (value : Nat) {rest : Text} (separated : Separated separator rest) :
    (ofNat value ++ rest).takeWhile Char.isDigit = ofNat value := by
  rw [List.takeWhile_append_of_pos fun _ => isDigit_of_mem_ofNat]
  cases rest with
  | nil => simp
  | cons char rest =>
      obtain rfl := separated char rfl
      simp [notDigit]

theorem ofNat_append_inj {first second : Nat} {rest other : Text} (separated : Separated separator rest)
    (otherSeparated : Separated separator other) (same : ofNat first ++ rest = ofNat second ++ other) :
    first = second ∧ rest = other := by
  have numbers := congrArg (List.takeWhile Char.isDigit) same
  rw [takeWhile_ofNat_append notDigit first separated, takeWhile_ofNat_append notDigit second otherSeparated] at numbers
  have equal : (first : Int) = second := ofInt_injective numbers
  refine ⟨Int.ofNat.inj equal, ?_⟩
  rw [numbers] at same
  exact List.append_cancel_left same

/-- The minus sign may be the separator: it is a sign only where a number starts. -/
theorem ofInt_append_inj {first second : Int} {rest other : Text} (separated : Separated separator rest)
    (otherSeparated : Separated separator other) (same : ofInt first ++ rest = ofInt second ++ other) :
    first = second ∧ rest = other := by
  have unsigned (value : Nat) (rest other : Text) : ofNat value ++ rest ≠ '-' :: other := by
    intro same
    cases digits : ofNat value with
    | nil => exact ofNat_ne_nil value digits
    | cons char tail =>
        have digit : char.isDigit = true := isDigit_of_mem_ofNat (by rw [digits]; simp)
        rw [digits] at same
        obtain rfl : char = '-' := (List.cons.inj same).1
        simp at digit
  cases first with
  | ofNat first =>
      cases second with
      | ofNat second =>
          obtain ⟨rfl, tails⟩ := ofNat_append_inj notDigit separated otherSeparated same
          exact ⟨rfl, tails⟩
      | negSucc second => exact absurd same (unsigned first rest _)
  | negSucc first =>
      cases second with
      | ofNat second => exact absurd same.symm (unsigned second other _)
      | negSucc second =>
          obtain ⟨equal, tails⟩ := ofNat_append_inj notDigit separated otherSeparated (List.cons.inj same).2
          exact ⟨by rw [Nat.succ.inj equal], tails⟩

theorem flatMap_ofInt_injective :
    Function.Injective fun numbers : List Int => numbers.flatMap fun number => separator :: ofInt number := by
  intro first second same
  induction first generalizing second with
  | nil =>
      cases second with
      | nil => rfl
      | cons => simp at same
  | cons number rest ih =>
      cases second with
      | nil => simp at same
      | cons other others =>
          obtain ⟨rfl, tails⟩ := ofInt_append_inj notDigit (separated_flatMap rest) (separated_flatMap others)
            (by simpa using same)
          rw [ih tails]

omit notDigit in
/-- A joined text with a separator in front has one before each number. -/
theorem cons_intercalate {numbers : List Int} (nonempty : numbers ≠ []) :
    separator :: [separator].intercalate (numbers.map ofInt) =
      numbers.flatMap fun number => separator :: ofInt number := by
  induction numbers with
  | nil => contradiction
  | cons number rest ih =>
      cases rest with
      | nil => simp
      | cons other others =>
          have tail := ih (by simp)
          simp only [List.map_cons, List.intercalate_cons_cons, List.flatMap_cons] at tail ⊢
          rw [← tail]
          simp

omit notDigit in
theorem intercalate_ofInt_eq_nil {numbers : List Int} :
    [separator].intercalate (numbers.map ofInt) = [] ↔ numbers = [] := by
  refine ⟨fun empty => ?_, fun empty => by rw [empty]; rfl⟩
  by_contra nonempty
  have joined : [separator] = _ := empty ▸ cons_intercalate nonempty
  cases numbers with
  | nil => contradiction
  | cons number rest => simp [ofInt_ne_nil] at joined

theorem intercalate_ofInt_injective :
    Function.Injective fun numbers : List Int => [separator].intercalate (numbers.map ofInt) := by
  intro first second same
  by_cases empty : first = []
  · have other : [separator].intercalate (second.map ofInt) = [] := same.symm.trans (intercalate_ofInt_eq_nil.mpr empty)
    rw [empty, intercalate_ofInt_eq_nil.mp other]
  · have other : second ≠ [] := fun otherEmpty => empty <|
      intercalate_ofInt_eq_nil.mp (Eq.trans same (intercalate_ofInt_eq_nil.mpr otherEmpty))
    apply flatMap_ofInt_injective notDigit
    simp only [← cons_intercalate empty, ← cons_intercalate other]
    exact congrArg _ same

end Joined

end Text

end ActiveBgp.Python

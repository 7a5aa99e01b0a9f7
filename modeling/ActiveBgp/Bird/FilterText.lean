import Mathlib
import ActiveBgp.Data.Lexing
import ActiveBgp.Python.Text

namespace ActiveBgp.Bird.Filter

open ActiveBgp.Python ActiveBgp.Data.Lexing ActiveBgp.Data.Lexing.Pattern

/-! # The tokens of the configuration

The scanner of BIRD for IPv4, outside of comments.  A file can be included by another,
and its text then stands in that place.
-/

abbrev IpAddr := UInt32

/-- What filters need of the libraries of BIRD and of C. -/
structure Library where
  ip4Pton : Text → Option IpAddr
  ipIsPrefix : IpAddr → Nat → Bool
  ipaCompare : IpAddr → IpAddr → Int
  ipaInNet : IpAddr → IpAddr → Nat → Bool
  netInNet : IpAddr → Nat → IpAddr → Nat → Bool
  patmatch : Text → Text → Bool
  strcmp : Text → Text → Int
  compares : ∀ first second, ipaCompare first second = 0 ↔ first = second

/-- A word is a keyword or a symbol. -/
inductive Token where
  | num (i : UInt32)
  | ipa (a : IpAddr)
  | word (name : Text)
  | text (t : Text)
  | char (char : Char)
  | elsecol | ddot | neq | nma | leq | geq | and | or | po | pc
  deriving DecidableEq

section Classes

def alpha (char : Char) : Bool := char.isAlpha || char == '_'

def alnum (char : Char) : Bool := char.isAlphanum || char == '_'

def xigit (char : Char) : Bool := char.isDigit || ('a' ≤ char && char ≤ 'f') || ('A' ≤ char && char ≤ 'F')

def white (char : Char) : Bool := char == ' ' || char == '\t'

/-- What may stand in a symbol between quotes. -/
def quotable (char : Char) : Bool := alnum char || char == '-' || char == '.' || char == ':'

def punctuation : List Char :=
  ['=', '\x7b', '\x7d', ':', ';', ',', '.', '(', ')', '+', '*', '/', '%', '<', '>', '~', '[', ']', '?', '!', '|', '-']

end Classes

section Patterns

def exactly (char : Char) : Pattern Char := letter (· == char)

def spelled : Text → Pattern Char
  | [] => empty
  | [char] => exactly char
  | char :: rest => append (exactly char) (spelled rest)

def plus (accepts : Char → Bool) : Pattern Char := append (letter accepts) (many (letter accepts))

def digits : Pattern Char := plus Char.isDigit

def dotted : Pattern Char :=
  append digits (append (exactly '.') (append digits (append (exactly '.') (append digits (append (exactly '.') digits)))))

/-- `{XIGIT}*:` -/
def group : Pattern Char := append (many (letter xigit)) (exactly ':')

def ip6 : Pattern Char :=
  append (either (append group (exactly ':')) (append group (append group (append group (many group)))))
    (either (many (letter xigit)) dotted)

def hex : Pattern Char := append (spelled "0x".toList) (plus xigit)

def symbol : Pattern Char := append (letter alpha) (many (letter alnum))

def quotedSymbol : Pattern Char := append (exactly '\x27') (append (many (letter quotable)) (exactly '\x27'))

/-- A string up to its last character. -/
def opened : Pattern Char := append (exactly '"') (many (letter fun char => char != '"' && char != '\n'))

end Patterns

section Rules

inductive Rule where
  | ip4 | ip6 | hex | number | word | punctuation | text | white | newline | comment | ccomm
  | token (token : Token)
  | unterminated | unknown
  deriving DecidableEq

/-- The rules of the scanner in their order, without the inclusion of files. -/
def rules : List (Pattern Char × Rule) :=
  [(dotted, .ip4), (ip6, .ip6), (hex, .hex), (digits, .number), (spelled "else:".toList, .token .elsecol),
    (either symbol quotedSymbol, .word), (spelled "..".toList, .token .ddot), (letter (punctuation.contains ·), .punctuation),
    (append opened (exactly '"'), .text), (append opened (exactly '\n'), .unterminated), (plus white, .white),
    (exactly '\n', .newline), (exactly '#', .comment), (spelled "/*".toList, .ccomm), (letter (· != '\n'), .unknown),
    (spelled "!=".toList, .token .neq), (spelled "!~".toList, .token .nma), (spelled "<=".toList, .token .leq),
    (spelled ">=".toList, .token .geq), (spelled "&&".toList, .token .and), (spelled "||".toList, .token .or),
    (spelled "[=".toList, .token .po), (spelled "=]".toList, .token .pc)]

/-- What is done with the text that a rule has taken. -/
inductive Reading where
  | token (token : Token)
  | skip | comment | ccomm | error

/-- The value of a hexadecimal digit. -/
def xigitValue (char : Char) : Nat :=
  if char.isDigit then char.toNat - 48 else if char.isLower then char.toNat - 87 else char.toNat - 55

def number (value : Nat) : Reading := if value < 4294967296 then .token (.num (UInt32.ofNat value)) else .error

def unquoted : Text → Text
  | '\x27' :: rest => rest.dropLast
  | name => name

def reading (lib : Library) (yytext : Text) : Rule → Reading
  | .ip4 => match lib.ip4Pton yytext with
    | some a => .token (.ipa a)
    | none => .error
  | .ip6 => .error
  | .hex => number ((yytext.drop 2).foldl (fun value char => 16 * value + xigitValue char) 0)
  | .number => number (Nat.ofDigitChars 10 yytext 0)
  | .word => .token (.word (unquoted yytext))
  | .punctuation => match yytext with
    | char :: _ => .token (.char char)
    | [] => .error
  | .text => .token (.text (yytext.drop 1).dropLast)
  | .white | .newline => .skip
  | .comment => .comment
  | .ccomm => .ccomm
  | .token token => .token token
  | .unterminated | .unknown => .error

/-- The state `COMMENT`. -/
def afterComment : Text → Text
  | [] => []
  | char :: rest => if char = '\n' then rest else afterComment rest

/-- The state `CCOMM`. -/
def afterCcomm : Text → Option Text
  | '*' :: '/' :: rest => some rest
  | '/' :: '*' :: _ => none
  | _ :: rest => afterCcomm rest
  | [] => none

def scan (lib : Library) : Nat → Text → Option (List Token)
  | 0, _ => none
  | _, [] => some []
  | fuel + 1, text =>
      match select rules text with
      | none => none
      | some (rule, yyleng) =>
          let rest := text.drop yyleng
          match reading lib (text.take yyleng) rule with
          | .token token => (scan lib fuel rest).map (token :: ·)
          | .skip => scan lib fuel rest
          | .comment => scan lib fuel (afterComment rest)
          | .ccomm => (afterCcomm rest).bind (scan lib fuel)
          | .error => none

/-- The tokens of a text, unless the scanner gives up. -/
def lex (lib : Library) (text : Text) : Option (List Token) := scan lib (text.length + 1) text

end Rules

section Scanning

variable {lib : Library} {word rest : Text} {rule : Rule}

theorem nullable_rules : ∀ rule ∈ rules, rule.1.nullable = false := by decide

theorem length_afterComment (text : Text) : (afterComment text).length ≤ text.length := by
  induction text with
  | nil => exact Nat.le_refl 0
  | cons char rest ih =>
      rw [afterComment]
      split
      · exact Nat.le_succ _
      · exact Nat.le_succ_of_le ih

theorem length_afterCcomm {text after : Text} (closed : afterCcomm text = some after) : after.length ≤ text.length := by
  induction text using afterCcomm.induct with
  | case1 rest =>
      cases closed
      simp only [List.length_cons]
      omega
  | case2 rest => cases closed
  | case3 char rest _ _ ih =>
      rw [afterCcomm] at closed
      · exact Nat.le_succ_of_le (ih closed)
      · assumption
      · assumption
  | case4 => cases closed

/-- Every step of the scanner takes something, so there are no more steps than characters. -/
theorem scan_congr {fuel other : Nat} {text : Text} (enough : text.length < fuel) (also : text.length < other) :
    scan lib fuel text = scan lib other text := by
  induction fuel generalizing other text with
  | zero => omega
  | succ fuel ih =>
      obtain ⟨other, rfl⟩ : ∃ less, other = less + 1 := ⟨other - 1, by omega⟩
      cases text with
      | nil => rfl
      | cons char tail =>
          simp only [scan]
          cases chosen : select rules (char :: tail) with
          | none => rfl
          | some found =>
              obtain ⟨rule, yyleng⟩ := found
              have taken := select_pos nullable_rules chosen
              have shorter : ((char :: tail).drop yyleng).length < (char :: tail).length := by
                rw [List.length_drop]
                omega
              simp only
              cases reading lib ((char :: tail).take yyleng) rule with
              | token token => exact congrArg (Option.map (token :: ·)) (ih (by omega) (by omega))
              | skip => exact ih (by omega) (by omega)
              | comment =>
                  have comment := length_afterComment ((char :: tail).drop yyleng)
                  exact ih (by omega) (by omega)
              | ccomm =>
                  cases closed : afterCcomm ((char :: tail).drop yyleng) with
                  | none => rfl
                  | some after =>
                      have comment := length_afterCcomm closed
                      exact ih (by omega) (by omega)
              | error => rfl

theorem lex_select (chosen : select rules (word ++ rest) = some (rule, word.length)) :
    lex lib (word ++ rest) = match reading lib word rule with
      | .token token => (lex lib rest).map (token :: ·)
      | .skip => lex lib rest
      | .comment => lex lib (afterComment rest)
      | .ccomm => (afterCcomm rest).bind (lex lib)
      | .error => none := by
  have taken := (select_pos nullable_rules chosen).1
  have less {text : Text} (shorter : text.length ≤ rest.length) :
      scan lib (word ++ rest).length text = scan lib (text.length + 1) text :=
    scan_congr (by rw [List.length_append]; omega) (Nat.lt_succ_self _)
  obtain ⟨char, tail, nonempty⟩ : ∃ char tail, word ++ rest = char :: tail :=
    List.exists_cons_of_ne_nil (by rintro nil; simp [List.append_eq_nil_iff.mp nil] at taken)
  rw [lex, nonempty, scan, ← nonempty, chosen]
  · simp only [List.take_left', List.drop_left']
    cases reading lib word rule with
    | token token => simp only [less (Nat.le_refl _), lex]
    | skip => exact less (Nat.le_refl _)
    | comment => exact less (length_afterComment rest)
    | ccomm =>
        cases closed : afterCcomm rest with
        | none => rfl
        | some after => exact less (length_afterCcomm closed)
    | error => rfl
  · exact nofun

theorem lex_token {token : Token} (chosen : select rules word = some (rule, word.length))
    (read : reading lib word rule = .token token) (stops : ∀ x ∈ rest.head?, ∀ rule ∈ rules, rule.1.Stops word x) :
    lex lib (word ++ rest) = (lex lib rest).map (token :: ·) := by
  rw [lex_select ((select_append stops).trans chosen), read]

theorem lex_skip (chosen : select rules word = some (rule, word.length)) (read : reading lib word rule = .skip)
    (stops : ∀ x ∈ rest.head?, ∀ rule ∈ rules, rule.1.Stops word x) : lex lib (word ++ rest) = lex lib rest := by
  rw [lex_select ((select_append stops).trans chosen), read]

end Scanning

section Ascii

theorem of_ascii {p : Char → Bool} (all : ((List.range 128).all fun code => p (Char.ofNat code)) = true) {char : Char}
    (ascii : char.toNat < 128) : p char = true := by
  rw [← Char.ofNat_toNat char]
  exact List.all_eq_true.mp all char.toNat (List.mem_range.mpr ascii)

theorem toNat_digit {char : Char} (digit : char.isDigit = true) : char.toNat < 128 := by
  have range : 48 ≤ char.toNat ∧ char.toNat ≤ 57 := Char.isDigit_iff_toNat.mp digit
  omega

theorem toNat_alpha {char : Char} (letter : alpha char = true) : char.toNat < 128 := by
  rw [alpha, Bool.or_eq_true, beq_iff_eq] at letter
  rcases letter with letter | rfl
  · rw [Char.isAlpha, Bool.or_eq_true, Char.isUpper, Char.isLower] at letter
    simp only [Bool.and_eq_true, decide_eq_true_eq, ge_iff_le, UInt32.le_iff_toNat_le] at letter
    have last : 'z'.val.toNat = 122 := rfl
    have capital : 'Z'.val.toNat = 90 := rfl
    have code : char.toNat = char.val.toNat := rfl
    omega
  · decide

/-- What is left of the rules after the first character of a text. -/
def shortAfter (char : Char) (rules : List (Pattern Char × Rule)) : Bool :=
  rules.all fun rule => (rule.1.deriv char).isShort

theorem stops_shortAfter {char : Char} {some_rules : List (Pattern Char × Rule)} (short : shortAfter char some_rules = true)
    (text : Text) (x : Char) : ∀ rule ∈ some_rules, rule.1.Stops (char :: text) x := fun rule inside =>
  stops_cons (List.all_eq_true.mp short rule inside) text x

theorem shortAfter_digit {char : Char} (digit : char.isDigit = true) : shortAfter char (rules.drop 4) = true := by
  have all := of_ascii (p := fun char => !char.isDigit || shortAfter char (rules.drop 4)) (by decide +kernel) (toNat_digit digit)
  simpa [digit] using all

/-- No text that starts with the character is taken by one of the rules. -/
def deadAfter (char : Char) (rules : List (Pattern Char × Rule)) : Bool :=
  rules.all fun rule => (rule.1.deriv char).isNothing

theorem not_mem_deadAfter {char : Char} {some_rules : List (Pattern Char × Rule)} (dead : deadAfter char some_rules = true)
    (text : Text) : ∀ rule ∈ some_rules, char :: text ∉ rule.1.language := fun rule inside =>
  not_mem_cons (List.all_eq_true.mp dead rule inside)

theorem dead_alpha {char : Char} (letter : alpha char = true) : shortAfter char (rules.drop 6) = true ∧
    (dotted.deriv char).isNothing = true ∧ (hex.deriv char).isNothing = true ∧ (digits.deriv char).isNothing = true ∧
      (quotedSymbol.deriv char).isNothing = true := by
  have all := of_ascii (p := fun char => !alpha char || (shortAfter char (rules.drop 6) && (dotted.deriv char).isNothing &&
    (hex.deriv char).isNothing && (digits.deriv char).isNothing && (quotedSymbol.deriv char).isNothing))
      (by decide +kernel) (toNat_alpha letter)
  simpa [letter, and_assoc] using all

end Ascii

section Tokens

variable {lib : Library} {word rest : Text}

/-- No number, address or symbol goes on with this character. -/
def Ends (char : Char) : Prop := alnum char = false ∧ char ≠ ':'

instance (char : Char) : Decidable (Ends char) := inferInstanceAs (Decidable (_ ∧ _))

theorem xigit_alnum {char : Char} (inside : xigit char = true) : alnum char = true := by
  simp only [xigit, Bool.or_eq_true, Bool.and_eq_true, decide_eq_true_eq] at inside
  simp only [alnum, Char.isAlphanum, Char.isAlpha, Char.isUpper, Char.isLower, Bool.or_eq_true, Bool.and_eq_true,
    decide_eq_true_eq, ge_iff_le]
  have f : 'f' ≤ 'z' := by decide
  have F : 'F' ≤ 'Z' := by decide
  rcases inside with (digit | lower) | upper
  · exact .inl (.inr digit)
  · exact .inl (.inl (.inr ⟨lower.1, UInt32.le_trans lower.2 f⟩))
  · exact .inl (.inl (.inl ⟨upper.1, UInt32.le_trans upper.2 F⟩))

theorem digit_alnum {char : Char} (digit : char.isDigit = true) : alnum char = true := by
  simp [alnum, Char.isAlphanum, digit]

/-- The first character of an IPv6 address that is not a digit is a colon. -/
theorem ip6_cons {text : Text} (member : text ∈ ip6.language) :
    ∃ front more, text = front ++ ':' :: more ∧ ∀ char ∈ front, xigit char = true := by
  have opens {group' rest : Text} (isGroup : group' ∈ group.language) :
      ∃ front more, group' ++ rest = front ++ ':' :: more ∧ ∀ char ∈ front, xigit char = true := by
    obtain ⟨front, hexadecimal, _, ⟨colon, accepted, rfl⟩, rfl⟩ := isGroup
    have kind : (many (letter xigit)).Within fun char => xigit char = true := fun _ accepted => accepted
    exact ⟨front, rest, by simp [beq_iff_eq.mp accepted], kind.mem hexadecimal⟩
  obtain ⟨_, ⟨first, isGroup, more, _, rfl⟩ | ⟨first, isGroup, more, _, rfl⟩, ending, _, rfl⟩ := member
  all_goals
    simp only [List.append_assoc]
    exact opens isGroup

theorem stops_ip6 (free : ':' ∉ word) {x : Char} (ends : Ends x) : ip6.Stops word x := by
  intro text member start
  obtain ⟨front, more, rfl, hexadecimal⟩ := ip6_cons member
  have noColon : ':' ∉ word ++ [x] := by simpa [free] using ends.2.symm
  have inside : word ++ [x] <+: front := by
    have colon : front ++ [':'] <+: front ++ ':' :: more := by simp
    rcases List.prefix_or_prefix_of_prefix start colon with within | beyond
    · rcases List.prefix_concat_iff.mp within with whole | inside
      · exact absurd (whole ▸ List.mem_append_right _ (List.mem_singleton_self ':')) noColon
      · exact inside
    · exact absurd (beyond.subset (List.mem_append_right _ (List.mem_singleton_self ':'))) noColon
  have last := xigit_alnum (hexadecimal x (inside.subset (List.mem_append_right _ (List.mem_singleton_self x))))
  exact Bool.false_ne_true (ends.1.symm.trans last)

theorem not_ip6 (free : ':' ∉ word) : word ∉ ip6.language := by
  intro member
  obtain ⟨front, more, rfl, _⟩ := ip6_cons member
  simp at free

theorem dotted_within : dotted.Within fun char => char.isDigit = true ∨ char = '.' := by
  have digit : digits.Within fun char => char.isDigit = true ∨ char = '.' :=
    ⟨fun _ accepted => .inl accepted, fun _ accepted => .inl accepted⟩
  have dot : (exactly '.').Within fun char => char.isDigit = true ∨ char = '.' := fun _ accepted => .inr (beq_iff_eq.mp accepted)
  exact ⟨digit, dot, digit, dot, digit, dot, digit⟩

theorem hex_within : hex.Within fun char => alnum char = true := by
  have spelling : (spelled "0x".toList).Within fun char => alnum char = true := by
    refine ⟨fun char accepted => ?_, fun char accepted => ?_⟩ <;> rw [beq_iff_eq.mp accepted] <;> decide
  exact ⟨spelling, fun _ accepted => xigit_alnum accepted, fun _ accepted => xigit_alnum accepted⟩

theorem digits_within : digits.Within fun char => char.isDigit = true := ⟨fun _ accepted => accepted, fun _ accepted => accepted⟩

theorem mem_plus {accepts : Char → Bool} (nonempty : word ≠ []) (all : ∀ char ∈ word, accepts char = true) :
    word ∈ (plus accepts).language := by
  obtain ⟨first, others, rfl⟩ := List.exists_cons_of_ne_nil nonempty
  obtain ⟨own, later⟩ := List.forall_mem_cons.mp all
  exact ⟨[first], ⟨first, own, rfl⟩, others, mem_many_letter later, rfl⟩

theorem not_mem_dotted (free : '.' ∉ word) : word ∉ dotted.language := by
  have needs : dotted.Needs (· = '.') := .inr (.inl fun _ accepted => beq_iff_eq.mp accepted)
  intro member
  obtain ⟨char, inside, rfl⟩ := needs.mem member
  exact free inside

theorem not_mem_hex (free : 'x' ∉ word) : word ∉ hex.language := by
  have needs : hex.Needs (· = 'x') := .inl (.inr fun _ accepted => beq_iff_eq.mp accepted)
  intro member
  obtain ⟨char, inside, rfl⟩ := needs.mem member
  exact free inside

theorem stops_digits {first : Char} {others : Text} (digit : first.isDigit = true) (free : ':' ∉ first :: others) {x : Char}
    (ends : Ends x) (noDot : x ≠ '.') : ∀ rule ∈ rules, rule.1.Stops (first :: others) x := by
  have other : ¬ (x.isDigit = true ∨ x = '.') := by
    rintro (digit | dot)
    · exact Bool.false_ne_true (ends.1.symm.trans (digit_alnum digit))
    · exact noDot dot
  have notDigit : ¬ x.isDigit = true := fun digit => other (.inl digit)
  have notAlnum : ¬ alnum x = true := by simp [ends.1]
  have split : rules = rules.take 4 ++ rules.drop 4 := (List.take_append_drop 4 rules).symm
  rw [split]
  refine List.forall_mem_append.mpr ⟨?_, stops_shortAfter (shortAfter_digit digit) others x⟩
  simp only [rules, List.take_succ_cons, List.take_zero, List.forall_mem_cons]
  exact ⟨dotted_within.stops other _, stops_ip6 free ends, hex_within.stops notAlnum _, digits_within.stops notDigit _, nofun⟩

theorem lex_number (nonempty : word ≠ []) (all : ∀ char ∈ word, char.isDigit = true)
    (small : Nat.ofDigitChars 10 word 0 < 4294967296) (ends : ∀ x ∈ rest.head?, Ends x ∧ x ≠ '.') :
    lex lib (word ++ rest) = (lex lib rest).map (.num (UInt32.ofNat (Nat.ofDigitChars 10 word 0)) :: ·) := by
  have absent {char : Char} (other : char.isDigit = false) : char ∉ word := fun inside =>
    Bool.false_ne_true (other.symm.trans (all char inside))
  have front : ∀ rule ∈ rules.take 3, word ∉ rule.1.language := by
    simp only [rules, List.take_succ_cons, List.take_zero, List.forall_mem_cons]
    exact ⟨not_mem_dotted (absent (by decide)), not_ip6 (absent (by decide)), not_mem_hex (absent (by decide)), nofun⟩
  have chosen : select rules word = some (.number, word.length) := select_whole (mem_plus nonempty all) front
  refine lex_token chosen (by rw [reading, number, if_pos small]) fun x inside => ?_
  obtain ⟨first, others, rfl⟩ := List.exists_cons_of_ne_nil nonempty
  exact stops_digits (all first List.mem_cons_self) (absent (by decide)) (ends x inside).1 (ends x inside).2

theorem dotted_cons (inside : word ∈ dotted.language) : ∃ first others, word = first :: others ∧ first.isDigit = true := by
  obtain ⟨_, ⟨_, ⟨first, digit, rfl⟩, more, _, rfl⟩, others, _, rfl⟩ := inside
  exact ⟨first, more ++ others, rfl, digit⟩

theorem lex_ip4 {a : IpAddr} (inside : word ∈ dotted.language) (address : lib.ip4Pton word = some a)
    (ends : ∀ x ∈ rest.head?, Ends x ∧ x ≠ '.') : lex lib (word ++ rest) = (lex lib rest).map (.ipa a :: ·) := by
  have chosen : select rules word = some (.ip4, word.length) := select_whole inside fun _ inside => absurd inside List.not_mem_nil
  have free : ':' ∉ word := fun colon => absurd (dotted_within.mem inside _ colon) (by decide)
  refine lex_token chosen (by rw [reading, address]) fun x beyond => ?_
  obtain ⟨first, others, rfl, digit⟩ := dotted_cons inside
  exact stops_digits digit free (ends x beyond).1 (ends x beyond).2

/-- The character is at the front of a keyword or symbol, and the others are the rest of it. -/
theorem lex_word {first : Char} {others : Text} (letter : alpha first = true) (alnums : others.all alnum = true)
    (ends : ∀ x ∈ rest.head?, Ends x) :
    lex lib (first :: (others ++ rest)) = (lex lib rest).map (.word (first :: others) :: ·) := by
  have all := List.all_eq_true.mp alnums
  obtain ⟨short, noAddress, noHex, noNumber, noQuote⟩ := dead_alpha letter
  have start : alnum first = true := by
    simp only [alpha, alnum, Char.isAlphanum, Bool.or_eq_true] at letter ⊢
    exact letter.imp_left .inl
  have wordy : ∀ char ∈ first :: others, alnum char = true := List.forall_mem_cons.mpr ⟨start, all⟩
  have free : ':' ∉ first :: others := fun colon => absurd (wordy ':' colon) (by decide)
  have elseNeeds : (spelled "else:".toList).Needs (· = ':') :=
    .inr (.inr (.inr (.inr fun _ accepted => beq_iff_eq.mp accepted)))
  have elseWithin : (spelled "else:".toList).Within fun char => alnum char = true ∨ char = ':' := by
    refine ⟨?_, ?_, ?_, ?_, ?_⟩ <;> (intro char accepted; rw [beq_iff_eq.mp accepted]; decide)
  have symbolWithin : symbol.Within fun char => alnum char = true := by
    refine ⟨fun char accepted => ?_, fun _ accepted => accepted⟩
    simp only [alpha, alnum, Char.isAlphanum, Bool.or_eq_true] at accepted ⊢
    exact accepted.imp_left .inl
  have front : ∀ rule ∈ rules.take 5, first :: others ∉ rule.1.language := by
    simp only [rules, List.take_succ_cons, List.take_zero, List.forall_mem_cons]
    refine ⟨not_mem_cons noAddress, not_ip6 free, not_mem_cons noHex, not_mem_cons noNumber, fun member => ?_, nofun⟩
    obtain ⟨char, inside, rfl⟩ := elseNeeds.mem member
    exact free inside
  have member : first :: others ∈ (either symbol quotedSymbol).language :=
    .inl ⟨[first], ⟨first, letter, rfl⟩, others, mem_many_letter all, rfl⟩
  have chosen : select rules (first :: others) = some (.word, (first :: others).length) := select_whole member front
  have bare : unquoted (first :: others) = first :: others := by
    unfold unquoted
    split
    · next same =>
        cases same
        exact absurd letter (by decide)
    · rfl
  refine @lex_token _ (first :: others) _ _ _ chosen (by rw [reading, bare]) fun x beyond => ?_
  have last := ends x beyond
  have notAlnum : ¬ alnum x = true := by simp [last.1]
  have split : rules = rules.take 6 ++ rules.drop 6 := (List.take_append_drop 6 rules).symm
  rw [split]
  refine List.forall_mem_append.mpr ⟨?_, stops_shortAfter short others x⟩
  simp only [rules, List.take_succ_cons, List.take_zero, List.forall_mem_cons]
  exact ⟨stops_cons (isShort_of_isNothing noAddress) _ _, stops_ip6 free last, stops_cons (isShort_of_isNothing noHex) _ _,
    stops_cons (isShort_of_isNothing noNumber) _ _, elseWithin.stops (by simp [last.1, last.2]) _,
    (symbolWithin.stops notAlnum _).either (stops_cons (isShort_of_isNothing noQuote) _ _), nofun⟩

/-- The two characters are not the beginning of one token. -/
def apart (char next : Char) : Bool := rules.all fun rule => (rule.1.after [char, next]).isNothing

theorem lex_char {char : Char} (known : char ∈ punctuation) (ends : ∀ x ∈ rest.head?, apart char x = true) :
    lex lib (char :: rest) = (lex lib rest).map (.char char :: ·) := by
  have each : (punctuation.all fun char => decide (select rules [char] = some (.punctuation, 1))) = true := by decide +kernel
  have chosen : select rules [char] = some (.punctuation, 1) := of_decide_eq_true (List.all_eq_true.mp each char known)
  refine @lex_token _ [char] _ _ _ chosen rfl fun x beyond rule inside => stops_of_after ?_
  exact List.all_eq_true.mp (ends x beyond) rule inside

theorem apart_digit {char next : Char} (known : char ∈ ['(', ',', '/']) (digit : next.isDigit = true) :
    apart char next = true := by
  have all := of_ascii (p := fun next => !next.isDigit || ['(', ',', '/'].all fun char => apart char next)
    (by decide +kernel) (toNat_digit digit)
  simp only [digit, Bool.not_true, Bool.false_or, List.all_eq_true] at all
  exact all char known

theorem lex_blank (nonempty : word ≠ []) (whites : word.all white = true)
    (ends : ∀ x ∈ rest.head?, white x = false) : lex lib (word ++ rest) = lex lib rest := by
  have blank := List.all_eq_true.mp whites
  have member : word ∈ (plus white).language := mem_plus nonempty blank
  obtain ⟨first, others, rfl⟩ := List.exists_cons_of_ne_nil nonempty
  have own := blank first List.mem_cons_self
  have known : deadAfter first (rules.take 10) = true ∧ shortAfter first (rules.take 10 ++ rules.drop 11) = true := by
    rw [white, Bool.or_eq_true, beq_iff_eq, beq_iff_eq] at own
    rcases own with rfl | rfl <;> decide
  have chosen : select rules (first :: others) = some (.white, (first :: others).length) :=
    select_whole member (not_mem_deadAfter known.1 others)
  refine lex_skip chosen rfl fun x beyond => ?_
  have within : (plus white).Within fun char => white char = true := ⟨fun _ accepted => accepted, fun _ accepted => accepted⟩
  have short := List.forall_mem_append.mp (stops_shortAfter known.2 others x)
  have split : rules = rules.take 10 ++ (plus white, .white) :: rules.drop 11 := rfl
  rw [split]
  exact List.forall_mem_append.mpr ⟨short.1, List.forall_mem_cons.mpr ⟨within.stops (by simp [ends x beyond]) _, short.2⟩⟩

theorem lex_newline (rest : Text) : lex lib ('\n' :: rest) = lex lib rest := by
  have chosen : select rules ['\n'] = some (.newline, 1) := by decide +kernel
  exact @lex_skip _ ['\n'] _ _ chosen rfl fun x _ => stops_shortAfter (by decide) [] x

end Tokens

section Strings

variable {lib : Library} {body rest : Text}

/-- What may stand in a string. -/
def Plain (body : Text) : Prop := ∀ char ∈ body, (char != '"' && char != '\n') = true

end Strings

end ActiveBgp.Bird.Filter

import ActiveBgp.Rib.Values

namespace ActiveBgp.Rib

open ActiveBgp.Python

/-! # The spellings of a community

A community is a number of 32 bits, written as an integer, as two numbers of 16
bits with a colon, or as a decimal or hexadecimal string.  The check returns its
normal form only for integers; a string is kept as it is, or replaced by an
integer, or refused.
-/

/-- The normal form of a community. -/
def communityText (number : Int) : Text := Text.ofInt (number / 2 ^ 16) ++ ':' :: Text.ofInt (number % 2 ^ 16)

def hexDigitValue? (char : Char) : Option Nat :=
  if char.isDigit then some (char.toNat - '0'.toNat)
  else if 'a' ≤ char ∧ char ≤ 'f' then some (char.toNat - 'a'.toNat + 10)
  else if 'A' ≤ char ∧ char ≤ 'F' then some (char.toNat - 'A'.toNat + 10)
  else none

def hexValue? (digits : Text) : Option Nat :=
  if digits = [] then none
  else digits.foldlM (fun value char => (hexDigitValue? char).map (16 * value + ·)) 0

/-- Two numbers of 16 bits, as `int` reads them. -/
structure Shorts (left right : Text) (high low : Int) : Prop where
  highParsed : Text.toInt? left = some high
  lowParsed : Text.toInt? right = some low
  highRange : 0 ≤ high ∧ high < 2 ^ 16
  lowRange : 0 ≤ low ∧ low < 2 ^ 16

/-- The documented spellings of a community. -/
inductive Spells : Value → Int → Prop where
  | integer {number : Int} (lower : 0 ≤ number) (upper : number < 2 ^ 32) : Spells (.int number) number
  | shorts {left right : Text} {high low : Int} (shorts : Shorts left right high low) :
      Spells (.str (left ++ ':' :: right)) (high * 2 ^ 16 + low)
  | decimal {text : Text} {number : Int} (parsed : Text.toInt? text = some number) (lower : 0 ≤ number)
      (upper : number < 2 ^ 32) : Spells (.str text) number
  | hexadecimal {digits : Text} {number : Nat} (parsed : hexValue? digits = some number) (upper : number < 2 ^ 32) :
      Spells (.str ('0' :: 'x' :: digits)) number

/-- The value is treated as the documentation of `CommunityList` says. -/
structure Normalised (value : Value) : Prop where
  stored : ∀ stored, communityListCheck value = .ok stored → ∃ high low : Int, (0 ≤ high ∧ high < 2 ^ 16) ∧
    (0 ≤ low ∧ low < 2 ^ 16) ∧ stored = .str (Text.ofInt high ++ ':' :: Text.ofInt low)
  refused : ∀ error, communityListCheck value = .error error → ∃ message, error = .valueError message
  spelled : ∀ number, Spells value number → communityListCheck value = .ok (.str (communityText number))
  again : ∀ stored, communityListCheck value = .ok stored → communityListCheck stored = .ok stored

/-- The value is an integer, or a string that is neither a number nor a spelling other than the normal form. -/
def Value.Plain : Value → Prop
  | .int _ => True
  | .str text => Text.toInt? text = .none ∧ ∀ number, Spells (.str text) number → text = communityText number
  | .none => False

theorem communityListCheck_int {number : Int} (lower : 0 ≤ number) (upper : number < 2 ^ 32) :
    communityListCheck (.int number) = .ok (.str (communityText number)) := by
  rw [communityListCheck, if_neg (by omega), communityText]

theorem communityListCheck_outside {number : Int} (outside : number < 0 ∨ number ≥ 2 ^ 32) :
    ∃ message, communityListCheck (.int number) = .error (.valueError message) :=
  ⟨_, by rw [communityListCheck, if_pos outside]⟩

theorem communityListCheck_text {number : Int} (lower : 0 ≤ number) (upper : number < 2 ^ 32) :
    communityListCheck (.str (communityText number)) = .ok (.str (communityText number)) :=
  communityListCheck_pair (by omega) (by omega)

section Strings

variable {text : Text}

theorem communityParts_error {parts : List Text} {error : PyError} (refused : communityParts text parts = .error error) :
    ∃ message, error = .valueError message := by
  induction parts with
  | nil => contradiction
  | cons part rest ih =>
      cases parsed : Text.toInt? part with
      | none =>
          simp only [communityParts, Value.toInt, parsed] at refused
          cases refused
          exact ⟨_, rfl⟩
      | some number =>
          simp only [communityParts, Value.toInt, parsed] at refused
          split at refused
          · cases refused
            exact ⟨_, rfl⟩
          · exact ih refused

theorem communityListCheck_error {error : PyError} (refused : communityListCheck (.str text) = .error error) :
    ∃ message, error = .valueError message := by
  simp only [communityListCheck] at refused
  split at refused
  · split at refused
    · cases refused
      exact ⟨_, rfl⟩
    · cases parts : communityParts text (text.splitOn ':') with
      | error error =>
          rw [parts] at refused
          cases refused
          exact communityParts_error parts
      | ok _ =>
          rw [parts] at refused
          cases refused
  · cases parsed : Text.toInt? text <;> simp only [Value.toInt, parsed, Except.map] at refused <;> cases refused
    exact ⟨_, rfl⟩

/-- A string without a colon is replaced by what `int` makes of it. -/
theorem communityListCheck_number (noColon : ':' ∉ text) :
    communityListCheck (.str text) = (Value.str text).toInt.map .int := by
  rw [communityListCheck, if_neg noColon]

theorem communityParts_range {parts : List Text} (accepted : communityParts text parts = .ok ()) :
    ∀ part ∈ parts, ∃ number : Int, Text.toInt? part = some number ∧ 0 ≤ number ∧ number < 2 ^ 16 := by
  induction parts with
  | nil => simp
  | cons first rest ih =>
      cases parsed : Text.toInt? first with
      | none => simp [communityParts, Value.toInt, parsed] at accepted
      | some number =>
          simp only [communityParts, Value.toInt, parsed] at accepted
          split at accepted
          · contradiction
          · rename_i inRange
            exact List.forall_mem_cons.mpr ⟨⟨number, parsed, by omega, by omega⟩, ih accepted⟩

/-- A string with a colon that is accepted consists of two numbers, and is kept as it is. -/
theorem communityListCheck_shorts {stored : Value} (colon : ':' ∈ text)
    (accepted : communityListCheck (.str text) = .ok stored) :
    stored = .str text ∧ ∃ left right high low, text = left ++ ':' :: right ∧ Shorts left right high low := by
  simp only [communityListCheck, if_pos colon] at accepted
  split at accepted
  · contradiction
  · rename_i two
    cases parts : communityParts text (text.splitOn ':') with
    | error error => simp [parts, Except.map] at accepted
    | ok _ =>
        rw [parts] at accepted
        cases accepted
        obtain ⟨left, right, split⟩ := List.length_eq_two.mp (not_not.mp two)
        have joined : [':'].intercalate (text.splitOn ':') = text := List.intercalate_splitOn ':'
        have ranges := communityParts_range parts
        rw [split] at joined ranges
        obtain ⟨high, highParsed, highRange⟩ := ranges left (by simp)
        obtain ⟨low, lowParsed, lowRange⟩ := ranges right (by simp)
        exact ⟨rfl, left, right, high, low, by simpa using joined.symm, highParsed, lowParsed, highRange, lowRange⟩

theorem Shorts.noColon {left right : Text} {high low : Int} (shorts : Shorts left right high low) :
    ':' ∉ left ∧ ':' ∉ right :=
  ⟨Text.toInt?_excludes (by decide) shorts.highParsed, Text.toInt?_excludes (by decide) shorts.lowParsed⟩

theorem Shorts.accepted {left right : Text} {high low : Int} (shorts : Shorts left right high low) :
    communityListCheck (.str (left ++ ':' :: right)) = .ok (.str (left ++ ':' :: right)) := by
  obtain ⟨leftFree, rightFree⟩ := shorts.noColon
  obtain ⟨highParsed, lowParsed, highRange, lowRange⟩ := shorts
  have highOk : ¬ (high < 0 ∨ high ≥ 2 ^ 16) := by omega
  have lowOk : ¬ (low < 0 ∨ low ≥ 2 ^ 16) := by omega
  have parts : communityParts (left ++ ':' :: right) [left, right] = .ok () := by
    simp only [communityParts, Value.toInt, highParsed, lowParsed, if_neg highOk, if_neg lowOk]
  simp only [communityListCheck, Text.splitOn_pair leftFree rightFree, parts]
  simp [Except.map]

theorem Spells.range {value : Value} {number : Int} (spells : Spells value number) : 0 ≤ number ∧ number < 2 ^ 32 := by
  cases spells with
  | integer lower upper => exact ⟨lower, upper⟩
  | shorts shorts =>
      have highRange := shorts.highRange
      have lowRange := shorts.lowRange
      omega
  | decimal _ lower upper => exact ⟨lower, upper⟩
  | hexadecimal _ upper => omega

end Strings

/-- A value whose check has this outcome is treated as documented. -/
theorem Normalised.of_ok {value : Value} {number : Int} (lower : 0 ≤ number) (upper : number < 2 ^ 32)
    (accepted : communityListCheck value = .ok (.str (communityText number)))
    (only : ∀ other, Spells value other → communityText other = communityText number) : Normalised value where
  stored stored done := by
    obtain rfl := Except.ok.inj (accepted.symm.trans done)
    exact ⟨_, _, by omega, by omega, rfl⟩
  refused error done := by
    rw [accepted] at done
    contradiction
  spelled other spells := by rw [accepted, only other spells]
  again stored done := by
    obtain rfl := Except.ok.inj (accepted.symm.trans done)
    exact communityListCheck_text lower upper

theorem Normalised.of_error {value : Value} {message : Text}
    (refused : communityListCheck value = .error (.valueError message)) (none : ∀ number, ¬ Spells value number) :
    Normalised value where
  stored stored done := by
    rw [refused] at done
    contradiction
  refused error done := ⟨message, (Except.error.inj (refused.symm.trans done)).symm⟩
  spelled number spells := absurd spells (none number)
  again stored done := by
    rw [refused] at done
    contradiction

theorem normalised_int (number : Int) : Normalised (.int number) := by
  by_cases inRange : 0 ≤ number ∧ number < 2 ^ 32
  · refine .of_ok inRange.1 inRange.2 (communityListCheck_int inRange.1 inRange.2) fun other spells => ?_
    cases spells
    rfl
  · obtain ⟨message, refused⟩ := @communityListCheck_outside number (by omega)
    refine .of_error refused fun other spells => inRange ?_
    cases spells
    constructor <;> assumption

/-- Exactly the plain values are treated as documented. -/
theorem normalised_iff_plain (value : Value) : Normalised value ↔ value.Plain := by
  cases value with
  | none =>
      refine ⟨fun normalised => ?_, fun impossible => impossible.elim⟩
      obtain ⟨high, low, _, _, same⟩ := normalised.stored .none rfl
      contradiction
  | int number => exact ⟨fun _ => trivial, fun _ => normalised_int number⟩
  | str text =>
      constructor
      · intro normalised
        have unparsed : Text.toInt? text = none := by
          cases parsed : Text.toInt? text with
          | none => rfl
          | some number =>
              have noColon : ':' ∉ text := Text.toInt?_excludes (by decide) parsed
              have done : communityListCheck (.str text) = .ok (.int number) := by
                rw [communityListCheck_number noColon, Value.toInt, parsed]
                rfl
              obtain ⟨high, low, _, _, same⟩ := normalised.stored _ done
              contradiction
        refine ⟨unparsed, fun number spells => ?_⟩
        have accepted := normalised.spelled number spells
        by_cases colon : ':' ∈ text
        · exact (Value.str.inj (communityListCheck_shorts colon accepted).1).symm
        · rw [communityListCheck_number colon, Value.toInt, unparsed] at accepted
          contradiction
      · rintro ⟨unparsed, plain⟩
        cases outcome : communityListCheck (.str text) with
        | error error =>
            obtain ⟨message, rfl⟩ := communityListCheck_error outcome
            refine .of_error outcome fun number spells => ?_
            have range := spells.range
            rw [plain number spells, communityListCheck_text range.1 range.2] at outcome
            contradiction
        | ok stored =>
            have colon : ':' ∈ text := by
              by_contra noColon
              rw [communityListCheck_number noColon, Value.toInt, unparsed] at outcome
              contradiction
            obtain ⟨rfl, left, right, high, low, split, shorts⟩ := communityListCheck_shorts colon outcome
            have spells : Spells (.str text) (high * 2 ^ 16 + low) := split ▸ .shorts shorts
            have range := spells.range
            rw [plain _ spells] at outcome
            refine .of_ok range.1 range.2 (by rw [plain _ spells]; exact outcome) fun other also => ?_
            rw [← plain _ spells, ← plain other also]

/-- A decimal string is stored as an integer. -/
theorem decimal_not_normalised : ¬ Normalised (.str "65536".toList) := by
  intro normalised
  obtain ⟨high, low, _, _, same⟩ := normalised.stored (.int 65536) (by decide)
  contradiction

example : communityListCheck (.str "0x10000".toList) =
    .error (.valueError "invalid literal for int() with base 10".toList) := by decide

end ActiveBgp.Rib

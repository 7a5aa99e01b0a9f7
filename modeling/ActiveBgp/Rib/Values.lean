import ActiveBgp.Python.Collections
import ActiveBgp.Python.Effect
import Mathlib.Algebra.Group.Int.Defs
import Mathlib.Algebra.Group.Nat.Defs

namespace ActiveBgp.Rib

open ActiveBgp.Python

/-- A Python value: an integer, a string, or an object that is neither. -/
inductive Value where
  | int (value : Int)
  | str (text : Text)
  | none
deriving DecidableEq, Repr

/-- `str(value)`. -/
def Value.text : Value → Text
  | .int value => Text.ofInt value
  | .str text => text
  | .none => "None".toList

def Value.toInt : Value → Except PyError Int
  | .int value => .ok value
  | .str text =>
      match Text.toInt? text with
      | some value => .ok value
      | Option.none => .error (.valueError "invalid literal for int() with base 10".toList)
  | .none => .error .typeError

def asListCheck (value : Value) : Except PyError Value :=
  match value.toInt with
  | .error _ =>
      .error (.valueError ("ASN could not be converted to int: (".toList ++ value.text ++ ")".toList))
  | .ok asn =>
      if asn < 0 ∨ asn ≥ 2 ^ 32 then
        .error (.valueError ("ASN out of range: (".toList ++ Text.ofInt asn ++ ")".toList))
      else .ok (.int asn)

/-- The loop of `CommunityList._check` over the parts of an `a:b` string.  Only
`TypeError` is caught there, so the `ValueError` of `int` passes through. -/
def communityParts (value : Text) : List Text → Except PyError Unit
  | [] => .ok ()
  | part :: rest =>
      match (Value.str part).toInt with
      | .error error => .error error
      | .ok number =>
          if number < 0 ∨ number ≥ 2 ^ 16 then
            .error (.valueError ("Community part out of range: (".toList ++ Text.ofInt number ++
              ") (".toList ++ value ++ ")".toList))
          else communityParts value rest

/-- `CommunityList._check`.  A string without a colon, hexadecimal or not, is
replaced by the integer that `int` makes of it. -/
def communityListCheck : Value → Except PyError Value
  | .str text =>
      if ':' ∈ text then
        let parts := text.splitOn ':'
        if parts.length ≠ 2 then
          .error (.valueError ("Too many colons in community: (".toList ++ text ++ ")".toList))
        else (communityParts text parts).map fun _ => .str text
      else (Value.str text).toInt.map .int
  | .int number =>
      if number < 0 ∨ number ≥ 2 ^ 32 then
        .error (.valueError ("Community value out of range: (".toList ++ Text.ofInt number ++ ")".toList))
      else .ok (.str (Text.ofInt (number / 2 ^ 16) ++ ':' :: Text.ofInt (number % 2 ^ 16)))
  | .none => .ok .none

/-- `BGPList.__init__`: every item is checked, in order, and replaced. -/
def bgpList (check : Value → Except PyError Value) (items : List Value) : Except PyError (List Value) :=
  items.mapM check

def Value.IsAsn (value : Value) : Prop := ∃ asn, value = .int asn ∧ 0 ≤ asn ∧ asn < 2 ^ 32

/-- A string that `CommunityList` stores as it is. -/
def Value.IsCommunity (value : Value) : Prop :=
  ∃ text, value = .str text ∧ ':' ∈ text ∧ communityListCheck (.str text) = .ok (.str text)

/-- What a community may be given as: an integer or a string with a colon. -/
def Value.Colon : Value → Prop
  | .int _ => True
  | .str text => ':' ∈ text
  | .none => False

theorem asListCheck_ok {value checked : Value} (accepted : asListCheck value = .ok checked) :
    checked.IsAsn := by
  unfold asListCheck at accepted
  split at accepted
  · contradiction
  · rename_i asn _
    split at accepted
    · contradiction
    · rename_i inRange
      cases accepted
      exact ⟨asn, rfl, by omega, by omega⟩

theorem asListCheck_text {value : Value} (asn : value.IsAsn) : asListCheck (.str value.text) = .ok value := by
  obtain ⟨number, rfl, lower, upper⟩ := asn
  simp only [asListCheck, Value.toInt, Value.text, Text.toInt?_ofInt]
  rw [if_neg (by omega)]

theorem communityParts_pair {value : Text} {high low : Int}
    (highRange : 0 ≤ high ∧ high < 2 ^ 16) (lowRange : 0 ≤ low ∧ low < 2 ^ 16) :
    communityParts value [Text.ofInt high, Text.ofInt low] = .ok () := by
  have highOk : ¬ (high < 0 ∨ high ≥ 2 ^ 16) := by omega
  have lowOk : ¬ (low < 0 ∨ low ≥ 2 ^ 16) := by omega
  simp only [communityParts, Value.toInt, Text.toInt?_ofInt, if_neg highOk, if_neg lowOk]

theorem communityParts_ok {value : Text} {parts : List Text} (accepted : communityParts value parts = .ok ()) :
    ∀ part ∈ parts, ∃ number, Text.toInt? part = some number := by
  induction parts with
  | nil => simp
  | cons first rest ih =>
      cases parsed : Text.toInt? first with
      | none => simp [communityParts, Value.toInt, parsed] at accepted
      | some number =>
          simp only [communityParts, Value.toInt, parsed] at accepted
          split at accepted
          · contradiction
          · intro part member
            rcases List.mem_cons.mp member with rfl | later
            · exact ⟨number, parsed⟩
            · exact ih accepted part later

/-- A stored community consists of the characters of two numbers and a colon. -/
theorem not_mem_community {char : Char} (outside : Text.OutsideInt char) (notColon : char ≠ ':')
    {text : Text} (colon : ':' ∈ text) (accepted : communityListCheck (.str text) = .ok (.str text)) :
    char ∉ text := by
  have parts : communityParts text (text.splitOn ':') = .ok () := by
    simp only [communityListCheck, if_pos colon] at accepted
    split at accepted
    · contradiction
    · cases outcome : communityParts text (text.splitOn ':') with
      | error error => simp [outcome, Except.map] at accepted
      | ok _ => rfl
  intro member
  have joined : [':'].intercalate (text.splitOn ':') = text := List.intercalate_splitOn ':'
  rw [← joined] at member
  refine Text.not_mem_intercalate (fun part inside => ?_) notColon member
  obtain ⟨number, parsed⟩ := communityParts_ok parts part inside
  exact Text.toInt?_excludes outside parsed

theorem communityListCheck_pair {high low : Int} (highRange : 0 ≤ high ∧ high < 2 ^ 16)
    (lowRange : 0 ≤ low ∧ low < 2 ^ 16) :
    communityListCheck (.str (Text.ofInt high ++ ':' :: Text.ofInt low)) =
      .ok (.str (Text.ofInt high ++ ':' :: Text.ofInt low)) := by
  have free (value : Int) : ':' ∉ Text.ofInt value := Text.not_mem_ofInt (by decide) value
  have parts := Text.splitOn_pair (free high) (free low)
  simp only [communityListCheck, parts, communityParts_pair highRange lowRange]
  simp [Except.map]

theorem communityListCheck_ok {value checked : Value} (colon : value.Colon)
    (accepted : communityListCheck value = .ok checked) : checked.IsCommunity := by
  cases value with
  | none => exact colon.elim
  | str text =>
      have inside : ':' ∈ text := colon
      have same : checked = .str text := by
        simp only [communityListCheck, if_pos inside] at accepted
        split at accepted
        · contradiction
        · cases outcome : communityParts text (text.splitOn ':') with
          | error error => simp [outcome, Except.map] at accepted
          | ok _ => simpa [outcome, Except.map] using accepted.symm
      subst same
      exact ⟨text, rfl, inside, accepted⟩
  | int number =>
      simp only [communityListCheck] at accepted
      split at accepted
      · contradiction
      · rename_i inRange
        cases accepted
        exact ⟨_, rfl, by simp, communityListCheck_pair (by omega) (by omega)⟩

section Lists

variable {check : Value → Except PyError Value} {good : Value → Prop} {given : Value → Prop}
  {items stored : List Value}

theorem bgpList_forall (accepts : ∀ value checked, given value → check value = .ok checked → good checked)
    (allowed : ∀ value ∈ items, given value) (built : bgpList check items = .ok stored) :
    ∀ value ∈ stored, good value := by
  induction items generalizing stored with
  | nil =>
      simp only [bgpList, List.mapM_nil, pure, Except.pure, Except.ok.injEq] at built
      subst stored
      simp
  | cons first rest ih =>
      simp only [bgpList, List.mapM_cons, bind, Except.bind, pure, Except.pure] at built
      split at built
      · contradiction
      · rename_i checked accepted
        split at built
        · contradiction
        · rename_i tail tailBuilt
          cases built
          intro value member
          rcases List.mem_cons.mp member with rfl | later
          · exact accepts first value (allowed first (by simp)) accepted
          · exact ih (fun value member => allowed value (by simp [member])) tailBuilt value later

theorem bgpList_eq_nil (built : bgpList check items = .ok stored) : stored = [] ↔ items = [] := by
  cases items with
  | nil =>
      cases built
      simp
  | cons first rest =>
      simp only [bgpList, List.mapM_cons, bind, Except.bind, pure, Except.pure] at built
      split at built
      · contradiction
      · split at built
        · contradiction
        · cases built
          simp

theorem asList_forall (built : bgpList asListCheck items = .ok stored) : ∀ value ∈ stored, value.IsAsn :=
  bgpList_forall (fun value checked (_ : True) accepted => asListCheck_ok accepted) (by simp) built

theorem bgpList_map {encode : Value → Value} (kept : ∀ value ∈ items, check (encode value) = .ok value) :
    bgpList check (items.map encode) = .ok items := by
  induction items with
  | nil => rfl
  | cons first rest ih =>
      have tail := ih fun value member => kept value (by simp [member])
      simp only [bgpList] at tail
      simp only [bgpList, List.map_cons, List.mapM_cons, kept first (by simp), bind, Except.bind, tail, pure,
        Except.pure]

end Lists

end ActiveBgp.Rib

import ActiveBgp.Python.Effect
import ActiveBgp.Python.Lines

namespace ActiveBgp.Frrp

open ActiveBgp.Python

inductive Field where
  | list (items : List Text)
  | text (value : Text)
  | none
deriving DecidableEq

/-- `\[(?P<nested>.*?)\],` after the bracket: the text before the first `],` of the line. -/
def nestedGroup : Text → Option Text
  | [] => none
  | ']' :: ',' :: _ => some []
  | char :: rest => if char = '\n' then none else (nestedGroup rest).map (char :: ·)

/-- `(?P<flat>[^,]+?),` -/
def flatGroup (text : Text) : Option Text :=
  let group := text.takeWhile (· ≠ ',')
  if group ≠ [] ∧ group.length < text.length then some group else none

/-- The field that is matched at the start of the text, and the length of the match. -/
def matchField (text : Text) : Option (Field × Nat) :=
  let flat := (flatGroup text).map fun group => (Field.text group, group.length + 1)
  match text with
  | '[' :: rest =>
      match nestedGroup rest with
      | some group => some (if group = [] then .none else .list (group.splitOn ','), group.length + 3)
      | none => flat
  | _ => flat

/-- The matches from left to right; `skip` characters belong to the match before. -/
def finditer : Nat → Text → List Field
  | _, [] => []
  | skip + 1, _ :: rest => finditer skip rest
  | 0, char :: rest =>
      match matchField (char :: rest) with
      | some (field, length) => field :: finditer (length - 1) rest
      | none => finditer 0 rest

namespace Field

/-- The code point of the single quote, as in `repr`. -/
def singleQuote : Char := Char.ofNat 0x27

/-- `repr` of a string; all characters outside ASCII count as printable. -/
def repr (text : Text) : Text :=
  let quote := if singleQuote ∈ text ∧ '"' ∉ text then '"' else singleQuote
  let escape := fun char : Char =>
    if char = quote ∨ char = '\\' then ['\\', char]
    else if char = '\t' then "\\t".toList
    else if char = '\n' then "\\n".toList
    else if char = '\r' then "\\r".toList
    else if char.toNat < 0x20 ∨ char.toNat = 0x7f then
      "\\x".toList ++ [Nat.digitChar (char.toNat / 16), Nat.digitChar (char.toNat % 16)]
    else [char]
  quote :: text.flatMap escape ++ [quote]

def str : Field → Text
  | .list items => "[".toList ++ ", ".toList.intercalate (items.map repr) ++ "]".toList
  | .text value => value
  | .none => "None".toList

def toInt : Field → Except PyError Int
  | .text value =>
      match Text.toInt? value with
      | some number => .ok number
      | Option.none => .error (.valueError "invalid literal for int() with base 10".toList)
  | _ => .error .typeError

/-- What a loop over the field runs through; a string has its characters. -/
def iter : Field → Except PyError (List Text)
  | .list items => .ok items
  | .text value => .ok (value.map fun char => [char])
  | .none => .error .typeError

/-- The field of a list that is printed in brackets. -/
def ofItems (items : List Text) : Field := if items = [] then .none else .list items

end Field

section Matches

variable {rest : Text}

theorem finditer_skip (skip : Nat) (text : Text) : finditer skip text = finditer 0 (text.drop skip) := by
  induction skip generalizing text with
  | zero => rfl
  | succ skip ih =>
      cases text with
      | nil => rfl
      | cons char rest => exact ih rest

theorem finditer_match {text : Text} {field : Field} {length : Nat} (nonempty : text ≠ [])
    (found : matchField text = some (field, length + 1)) : finditer 0 text = field :: finditer 0 (text.drop (length + 1)) := by
  cases text with
  | nil => contradiction
  | cons char rest => simp only [finditer, found, Nat.add_sub_cancel, finditer_skip length rest, List.drop_succ_cons]

theorem flatGroup_text {value : Text} (nonempty : value ≠ []) (free : ',' ∉ value) :
    flatGroup (value ++ ',' :: rest) = some value := by
  have group : (value ++ ',' :: rest).takeWhile (· ≠ ',') = value := by
    have before : ∀ char ∈ value, decide (char ≠ ',') = true := by
      intro char member
      simpa using ne_of_mem_of_not_mem member free
    rw [List.takeWhile_append_of_pos before]
    simp
  simp only [flatGroup, group]
  rw [if_pos ⟨nonempty, by simp⟩]

/-- A text that does not start with a bracket is a field up to its comma. -/
theorem finditer_text {value : Text} (nonempty : value ≠ []) (free : ',' ∉ value) (first : value.head? ≠ some '[') :
    finditer 0 (value ++ ',' :: rest) = .text value :: finditer 0 rest := by
  have found : matchField (value ++ ',' :: rest) = some (.text value, value.length + 1) := by
    have flat : flatGroup (value ++ ',' :: rest) = some value := flatGroup_text nonempty free
    cases value with
    | nil => contradiction
    | cons char tail =>
        unfold matchField
        split
        · rename_i same
          simp [(List.cons.inj same).1] at first
        · simp only [flat, Option.map_some]
  rw [finditer_match (by simp) found]
  simp

theorem nestedGroup_list {group : Text} (free : ']' ∉ group) (oneLine : '\n' ∉ group) :
    nestedGroup (group ++ ']' :: ',' :: rest) = some group := by
  induction group with
  | nil => rfl
  | cons char tail ih =>
      obtain ⟨notClosed, later⟩ := List.ne_and_not_mem_of_not_mem_cons free
      obtain ⟨notFeed, laterFeed⟩ := List.ne_and_not_mem_of_not_mem_cons oneLine
      rw [List.cons_append, nestedGroup, if_neg (Ne.symm notFeed), ih later laterFeed]
      · rfl
      · exact fun _ same => absurd same.symm notClosed

theorem finditer_list {items : List Text} (free : ∀ item ∈ items, item ≠ [] ∧ ',' ∉ item ∧ ']' ∉ item ∧ '\n' ∉ item) :
    finditer 0 ('[' :: ",".toList.intercalate items ++ ']' :: ',' :: rest) = Field.ofItems items :: finditer 0 rest := by
  have closed : ']' ∉ ",".toList.intercalate items :=
    Text.not_mem_intercalate (fun item member => (free item member).2.2.1) (by decide)
  have oneLine : '\n' ∉ ",".toList.intercalate items :=
    Text.not_mem_intercalate (fun item member => (free item member).2.2.2) (by decide)
  have field : (if ",".toList.intercalate items = [] then Field.none
      else .list ((",".toList.intercalate items).splitOn ',')) = Field.ofItems items := by
    cases items with
    | nil => rfl
    | cons item others =>
        have nonempty : ",".toList.intercalate (item :: others) ≠ [] := by
          obtain ⟨char, tail, same⟩ := List.exists_cons_of_ne_nil (free item (by simp)).1
          cases others <;> simp [same, List.intercalate_cons_cons]
        have split : (",".toList.intercalate (item :: others)).splitOn ',' = item :: others :=
          List.splitOn_intercalate ',' (fun text member => (free text member).2.1) (by simp)
        rw [if_neg nonempty, split, Field.ofItems, if_neg (by simp)]
  have found : matchField ('[' :: ",".toList.intercalate items ++ ']' :: ',' :: rest) =
      some (Field.ofItems items, (",".toList.intercalate items).length + 2 + 1) := by
    rw [← field]
    simp only [matchField, List.cons_append, nestedGroup_list closed oneLine]
  have length : ('[' :: ",".toList.intercalate items ++ ']' :: ',' :: rest).drop
      ((",".toList.intercalate items).length + 2 + 1) = rest := by
    rw [List.cons_append, List.drop_succ_cons, ← List.drop_drop, List.drop_left']
    · rfl
    · rfl
  rw [finditer_match (by simp) found, length]

theorem finditer_comma : finditer 0 (',' :: rest) = finditer 0 rest := by
  simp [finditer, matchField, flatGroup]

end Matches

section Characters

/-- The texts in a field. -/
def Field.texts : Field → List Text
  | .list items => items
  | .text value => [value]
  | .none => []

theorem mem_intercalate {separator item : Text} {items : List Text} (among : item ∈ items) {char : Char}
    (member : char ∈ item) : char ∈ separator.intercalate items := by
  induction items with
  | nil => simp at among
  | cons first rest ih =>
      cases rest with
      | nil => simpa [← List.mem_singleton.mp among] using member
      | cons second others =>
          rw [List.intercalate_cons_cons, List.mem_append, List.mem_append]
          rcases List.mem_cons.mp among with rfl | later
          · exact .inl (.inl member)
          · exact .inr (ih later)

theorem mem_of_mem_intercalate {separator : Text} {items : List Text} {char : Char}
    (member : char ∈ separator.intercalate items) : char ∈ separator ∨ ∃ item ∈ items, char ∈ item := by
  induction items with
  | nil => simp at member
  | cons first rest ih =>
      cases rest with
      | nil => exact .inr ⟨first, by simp, by simpa using member⟩
      | cons second others =>
          rw [List.intercalate_cons_cons, List.mem_append, List.mem_append] at member
          rcases member with (now | between) | later
          · exact .inr ⟨first, by simp, now⟩
          · exact .inl between
          · rcases ih later with between | ⟨item, among, inside⟩
            · exact .inl between
            · exact .inr ⟨item, List.mem_cons_of_mem first among, inside⟩

theorem mem_nestedGroup {text group : Text} (found : nestedGroup text = some group) {char : Char} (member : char ∈ group) :
    char ∈ text := by
  induction text generalizing group with
  | nil => simp [nestedGroup] at found
  | cons first rest ih =>
      by_cases closed : first = ']' ∧ rest.head? = some ','
      · obtain ⟨rfl, comma⟩ := closed
        obtain ⟨tail, rfl⟩ := List.head?_eq_some_iff.mp comma
        obtain rfl : [] = group := by simpa [nestedGroup] using found
        simp at member
      · rw [nestedGroup] at found
        · split at found
          · cases found
          · obtain ⟨inner, later, rfl⟩ := Option.map_eq_some_iff.mp found
            rcases List.mem_cons.mp member with rfl | inside
            · exact List.mem_cons_self
            · exact List.mem_cons_of_mem first (ih later inside)
        · intro tail bracket same
          exact closed ⟨bracket, by rw [same]; rfl⟩

theorem mem_matchField {text : Text} {field : Field} {length : Nat} (found : matchField text = some (field, length))
    {item : Text} (among : item ∈ field.texts) {char : Char} (member : char ∈ item) : char ∈ text := by
  have flat (done : (flatGroup text).map (fun group => (Field.text group, group.length + 1)) = some (field, length)) :
      char ∈ text := by
    obtain ⟨group, matched, same⟩ := Option.map_eq_some_iff.mp done
    cases same
    obtain rfl := List.mem_singleton.mp among
    unfold flatGroup at matched
    simp only at matched
    split at matched
    · cases matched
      exact (List.takeWhile_prefix _).subset member
    · cases matched
  unfold matchField at found
  simp only at found
  split at found
  · split at found
    · rename_i rest _ group nested
      cases found
      split at among
      · simp [Field.texts] at among
      · have inside : char ∈ group := by
          rw [← show [','].intercalate (group.splitOn ',') = group from List.intercalate_splitOn ',']
          exact mem_intercalate among member
        exact List.mem_cons_of_mem _ (mem_nestedGroup nested inside)
    · exact flat found
  · exact flat found

theorem mem_finditer {skip : Nat} {text : Text} {field : Field} (found : field ∈ finditer skip text) {item : Text}
    (among : item ∈ field.texts) {char : Char} (member : char ∈ item) : char ∈ text := by
  induction text generalizing skip with
  | nil => simp [finditer] at found
  | cons first rest ih =>
      cases skip with
      | succ skip => exact List.mem_cons_of_mem first (ih found)
      | zero =>
          rw [finditer] at found
          cases matched : matchField (first :: rest) with
          | none =>
              rw [matched] at found
              exact List.mem_cons_of_mem first (ih found)
          | some pair =>
              rw [matched] at found
              rcases List.mem_cons.mp found with rfl | later
              · exact mem_matchField matched among member
              · exact List.mem_cons_of_mem first (ih later)

theorem not_mem_repr {text : Text} {target : Char} (breaks : target ∈ ['\n', '\r']) (free : target ∉ text) :
    target ∉ Field.repr text := by
  have digits : ∀ value < 16, Nat.digitChar value ∉ ['\n', '\r'] := by decide
  have quotes : Field.singleQuote ∉ ['\n', '\r'] ∧ '"' ∉ ['\n', '\r'] := by decide
  have fixed : ∀ escaped ∈ ["\\t".toList, "\\n".toList, "\\r".toList, "\\x".toList, ['\\']], ∀ char ∈ escaped,
    char ∉ ['\n', '\r'] := by simp
  have quote : (if Field.singleQuote ∈ text ∧ '"' ∉ text then '"' else Field.singleQuote) ∉ ['\n', '\r'] := by
    split
    · exact quotes.2
    · exact quotes.1
  intro member
  unfold Field.repr at member
  generalize (if Field.singleQuote ∈ text ∧ '"' ∉ text then '"' else Field.singleQuote) = mark at member quote
  simp only [List.cons_append, List.mem_cons, List.mem_append, List.mem_flatMap, List.not_mem_nil, or_false] at member
  have unmarked : target ≠ mark := fun same => quote (same ▸ breaks)
  rcases member with first | ⟨char, inside, escaped⟩ | last
  · exact unmarked first
  · have other : target ≠ char := fun same => free (same ▸ inside)
    split at escaped
    · rcases List.mem_cons.mp escaped with backslash | same
      · exact fixed ['\\'] (by simp) target (by simp [backslash]) breaks
      · exact other (List.mem_singleton.mp same)
    split at escaped
    · exact fixed _ (by simp) target escaped breaks
    split at escaped
    · exact fixed _ (by simp) target escaped breaks
    split at escaped
    · exact fixed _ (by simp) target escaped breaks
    split at escaped
    · rename_i control
      have small : char.toNat / 16 < 16 ∧ char.toNat % 16 < 16 := by omega
      rcases List.mem_append.mp escaped with mark | hex
      · exact fixed _ (by simp) target mark breaks
      · simp only [List.mem_cons, List.not_mem_nil, or_false] at hex
        rcases hex with rfl | rfl
        · exact digits _ small.1 breaks
        · exact digits _ small.2 breaks
    · exact other (List.mem_singleton.mp escaped)
  · exact unmarked last

theorem oneLine_repr {text : Text} (oneLine : text.OneLine) : (Field.repr text).OneLine :=
  ⟨not_mem_repr (by simp) oneLine.1, not_mem_repr (by simp) oneLine.2⟩

theorem oneLine_str {field : Field} (oneLine : ∀ item ∈ field.texts, Text.OneLine item) : field.str.OneLine := by
  cases field with
  | none => exact (by decide : Text.OneLine "None".toList)
  | text value => exact oneLine value (by simp [Field.texts])
  | list items =>
      have brackets : Text.OneLine "[".toList ∧ Text.OneLine "]".toList ∧ Text.OneLine ", ".toList := by decide
      have inner : Text.OneLine (", ".toList.intercalate (items.map Field.repr)) := by
        constructor
        · intro feed
          rcases mem_of_mem_intercalate feed with between | ⟨text, printed, inside⟩
          · exact brackets.2.2.1 between
          · obtain ⟨raw, among, rfl⟩ := List.mem_map.mp printed
            exact (oneLine_repr (oneLine raw among)).1 inside
        · intro carriage
          rcases mem_of_mem_intercalate carriage with between | ⟨text, printed, inside⟩
          · exact brackets.2.2.2 between
          · obtain ⟨raw, among, rfl⟩ := List.mem_map.mp printed
            exact (oneLine_repr (oneLine raw among)).2 inside
      exact (brackets.1.append inner).append brackets.2.1

theorem oneLine_finditer {text : Text} (oneLine : text.OneLine) {field : Field} (found : field ∈ finditer 0 text) :
    field.str.OneLine :=
  oneLine_str fun _ among => ⟨fun feed => oneLine.1 (mem_finditer found among feed),
    fun carriage => oneLine.2 (mem_finditer found among carriage)⟩

end Characters

end ActiveBgp.Frrp

import ActiveBgp.Python.Text

namespace ActiveBgp.Python

/-! # Regular expressions

`re.match` tries the ways to match in a fixed order and takes the first one that
succeeds: a repetition takes as much as it can and gives back one character at a
time, an optional part is tried before it is left out.
-/

/-- What the named groups matched; a group that took no part is not listed. -/
abbrev Groups := List (Text × Text)

def Groups.group (groups : Groups) (name : Text) : Option Text := (groups.find? fun entry => entry.1 = name).map Prod.snd

inductive Regex where
  | literal (text : Text)
  | char (accepts : Char → Bool)
  | many (least : Nat) (accepts : Char → Bool)
  | optional (inner : Regex)
  | group (name : Text) (inner : Regex)
  | append (first second : Regex)
  /-- `$`: the end, or the newline at the end. -/
  | lineEnd

namespace Regex

/-- `(?P<name>[...]+)`, or with `*`. -/
def named (name : String) (least : Nat) (accepts : Char → Bool) : Regex := group name.toList (many least accepts)

/-- The parts one after another, up to the end of the line. -/
def line (parts : List Regex) : Regex := parts.foldr append lineEnd

/-- The ways to match a beginning of the text, in the order in which they are tried, with what is left of it. -/
def run : Regex → Text → List (Groups × Text)
  | literal word, text => if word <+: text then [([], text.drop word.length)] else []
  | char _, [] => []
  | char accepts, first :: rest => if accepts first then [([], rest)] else []
  | many least accepts, text =>
      let most := (text.takeWhile accepts).length
      (List.range' least (most + 1 - least)).reverse.map fun count => ([], text.drop count)
  | optional inner, text => run inner text ++ [([], text)]
  | group name inner, text =>
      (run inner text).map fun way => ((name, text.take (text.length - way.2.length)) :: way.1, way.2)
  | append first second, text =>
      (run first text).flatMap fun way => (run second way.2).map fun next => (way.1 ++ next.1, next.2)
  | lineEnd, text => if text = [] ∨ text = ['\n'] then [([], text)] else []

/-- `re.match(regex, text)`, which begins at the start of the text; a leading `^` adds nothing. -/
def match? (regex : Regex) (text : Text) : Option Groups := (run regex text).head?.map Prod.fst

variable {text rest : Text} {groups : Groups}

theorem run_literal (word text : Text) :
    run (literal word) text = if word <+: text then [([], text.drop word.length)] else [] := rfl

theorem run_char_nil (accepts : Char → Bool) : run (char accepts) [] = [] := rfl

theorem run_char_cons (accepts : Char → Bool) (first : Char) (rest : Text) :
    run (char accepts) (first :: rest) = if accepts first then [([], rest)] else [] := rfl

theorem run_many (least : Nat) (accepts : Char → Bool) (text : Text) : run (many least accepts) text =
    (List.range' least ((text.takeWhile accepts).length + 1 - least)).reverse.map fun count => ([], text.drop count) := rfl

theorem run_optional (inner : Regex) (text : Text) : run (optional inner) text = run inner text ++ [([], text)] := rfl

theorem run_group (name : Text) (inner : Regex) (text : Text) : run (group name inner) text =
    (run inner text).map fun way => ((name, text.take (text.length - way.2.length)) :: way.1, way.2) := rfl

theorem run_append (first second : Regex) (text : Text) : run (append first second) text =
    (run first text).flatMap fun way => (run second way.2).map fun next => (way.1 ++ next.1, next.2) := rfl

theorem run_lineEnd (text : Text) :
    run lineEnd text = if text = [] ∨ text = ['\n'] then [([], text)] else [] := rfl

@[simp] theorem mem_run_literal {word : Text} : (groups, rest) ∈ run (literal word) text ↔ groups = [] ∧ text = word ++ rest := by
  rw [run_literal]
  split
  · rename_i start
    obtain ⟨more, rfl⟩ := start
    rw [List.drop_left, List.mem_singleton, Prod.mk.injEq, List.append_cancel_left_eq]
    exact and_congr_right fun _ => eq_comm
  · rename_i other
    simp only [List.not_mem_nil, false_iff, not_and]
    rintro - rfl
    exact other (List.prefix_append word rest)

@[simp] theorem mem_run_char {accepts : Char → Bool} :
    (groups, rest) ∈ run (char accepts) text ↔ groups = [] ∧ ∃ first, text = first :: rest ∧ accepts first = true := by
  cases text with
  | nil => simp [run_char_nil]
  | cons first more =>
      rw [run_char_cons]
      split
      · rename_i accepted
        rw [List.mem_singleton, Prod.mk.injEq]
        refine and_congr_right fun _ => ⟨?_, ?_⟩
        · rintro rfl
          exact ⟨first, rfl, accepted⟩
        · rintro ⟨_, ⟨rfl, rfl⟩, _⟩
          rfl
      · rename_i refused
        simp only [List.not_mem_nil, List.cons.injEq, false_iff, not_and, not_exists]
        rintro - _ ⟨rfl, rfl⟩
        exact refused

@[simp] theorem mem_run_many {least : Nat} {accepts : Char → Bool} :
    (groups, rest) ∈ run (many least accepts) text ↔
      groups = [] ∧ ∃ taken, text = taken ++ rest ∧ least ≤ taken.length ∧ ∀ char ∈ taken, accepts char = true := by
  simp only [run_many, List.mem_map, List.mem_reverse, List.mem_range'_1, Prod.mk.injEq]
  constructor
  · rintro ⟨count, ⟨enough, bound⟩, rfl, rfl⟩
    have most : count ≤ (text.takeWhile accepts).length := by omega
    have fits : count ≤ text.length := most.trans (List.takeWhile_sublist _).length_le
    refine ⟨rfl, text.take count, (List.take_append_drop count text).symm, by rw [List.length_take]; omega, ?_⟩
    intro char member
    have start : text.take count <+: text.takeWhile accepts := by
      rw [← List.takeWhile_append_dropWhile (p := accepts) (l := text), List.take_append_of_le_length most]
      simpa using List.take_prefix count (text.takeWhile accepts)
    exact List.mem_takeWhile_imp (start.subset member)
  · rintro ⟨rfl, taken, rfl, enough, accepted⟩
    have most : taken.length ≤ ((taken ++ rest).takeWhile accepts).length := by
      rw [List.takeWhile_append_of_pos accepted, List.length_append]
      exact Nat.le_add_right _ _
    exact ⟨taken.length, ⟨enough, by omega⟩, rfl, List.drop_left⟩

@[simp] theorem mem_run_append {first second : Regex} : (groups, rest) ∈ run (append first second) text ↔
    ∃ before middle after, (before, middle) ∈ run first text ∧ (after, rest) ∈ run second middle ∧ groups = before ++ after := by
  simp only [run_append, List.mem_flatMap, List.mem_map, Prod.mk.injEq, Prod.exists]
  constructor
  · rintro ⟨before, middle, one, after, _, two, rfl, rfl⟩
    exact ⟨before, middle, after, one, two, rfl⟩
  · rintro ⟨before, middle, after, one, two, rfl⟩
    exact ⟨before, middle, one, after, rest, two, rfl, rfl⟩

@[simp] theorem mem_run_optional {inner : Regex} : (groups, rest) ∈ run (optional inner) text ↔
    (groups, rest) ∈ run inner text ∨ groups = [] ∧ rest = text := by
  simp [run_optional]

@[simp] theorem mem_run_lineEnd : (groups, rest) ∈ run lineEnd text ↔ groups = [] ∧ rest = text ∧ (text = [] ∨ text = ['\n']) := by
  rw [run_lineEnd]
  split <;> simp_all

@[simp] theorem mem_run_named {name : String} {least : Nat} {accepts : Char → Bool} :
    (groups, rest) ∈ run (named name least accepts) text ↔ ∃ taken, groups = [(name.toList, taken)] ∧
      text = taken ++ rest ∧ least ≤ taken.length ∧ ∀ char ∈ taken, accepts char = true := by
  rw [named, run_group]
  simp only [List.mem_map, Prod.mk.injEq, Prod.exists, mem_run_many]
  constructor
  · rintro ⟨_, _, ⟨rfl, taken, rfl, enough, accepted⟩, rfl, rfl⟩
    exact ⟨taken, by simp, rfl, enough, accepted⟩
  · rintro ⟨taken, rfl, rfl, enough, accepted⟩
    exact ⟨[], rest, ⟨rfl, taken, rfl, enough, accepted⟩, by simp, rfl⟩

@[simp] theorem mem_run_line_nil : (groups, rest) ∈ run (line []) text ↔ (groups, rest) ∈ run lineEnd text := Iff.rfl

theorem mem_run_line_cons {first : Regex} {more : List Regex} : (groups, rest) ∈ run (line (first :: more)) text ↔
    ∃ before middle after, (before, middle) ∈ run first text ∧ (after, rest) ∈ run (line more) middle ∧
      groups = before ++ after :=
  mem_run_append

theorem match?_mem {regex : Regex} (matched : regex.match? text = some groups) : ∃ rest, (groups, rest) ∈ run regex text := by
  obtain ⟨way, first, rfl⟩ := Option.map_eq_some_iff.mp matched
  exact ⟨way.2, List.mem_of_mem_head? first⟩

theorem match?_isSome_iff {regex : Regex} :
    (regex.match? text).isSome = true ↔ ∃ groups rest, (groups, rest) ∈ run regex text := by
  rw [match?, Option.isSome_map]
  cases run regex text with
  | nil => simp
  | cons way others => exact iff_of_true rfl ⟨way.1, way.2, List.mem_cons_self⟩

def names : Regex → List Text
  | group name inner => name :: names inner
  | optional inner => names inner
  | append first second => names first ++ names second
  | _ => []

theorem mem_names_of_run {regex : Regex} (matched : (groups, rest) ∈ run regex text) :
    ∀ entry ∈ groups, entry.1 ∈ names regex := by
  induction regex generalizing text rest groups with
  | literal word => simp [(mem_run_literal.mp matched).1]
  | char accepts => simp [(mem_run_char.mp matched).1]
  | many least accepts => simp [(mem_run_many.mp matched).1]
  | lineEnd => simp [(mem_run_lineEnd.mp matched).1]
  | optional inner ih =>
      rcases mem_run_optional.mp matched with taken | ⟨rfl, _⟩
      · exact ih taken
      · simp
  | group name inner ih =>
      obtain ⟨way, member, same⟩ := List.mem_map.mp matched
      cases same
      intro entry inside
      rcases List.mem_cons.mp inside with rfl | later
      · exact List.mem_cons_self
      · exact List.mem_cons_of_mem _ (ih member entry later)
  | append first second ihFirst ihSecond =>
      obtain ⟨before, middle, after, one, two, rfl⟩ := mem_run_append.mp matched
      intro entry inside
      rcases List.mem_append.mp inside with early | late
      · exact List.mem_append_left _ (ihFirst one entry early)
      · exact List.mem_append_right _ (ihSecond two entry late)

theorem suffix_of_run {regex : Regex} (matched : (groups, rest) ∈ run regex text) : rest <:+ text := by
  induction regex generalizing text rest groups with
  | literal word =>
      obtain ⟨_, rfl⟩ := mem_run_literal.mp matched
      exact List.suffix_append word rest
  | char accepts =>
      obtain ⟨_, first, rfl, _⟩ := mem_run_char.mp matched
      exact List.suffix_cons first rest
  | many least accepts =>
      obtain ⟨_, taken, rfl, _⟩ := mem_run_many.mp matched
      exact List.suffix_append taken rest
  | lineEnd =>
      obtain ⟨_, rfl, _⟩ := mem_run_lineEnd.mp matched
      exact List.suffix_rfl
  | optional inner ih =>
      rcases mem_run_optional.mp matched with taken | ⟨_, rfl⟩
      · exact ih taken
      · exact List.suffix_rfl
  | group name inner ih =>
      obtain ⟨way, member, same⟩ := List.mem_map.mp matched
      cases same
      exact ih member
  | append first second ihFirst ihSecond =>
      obtain ⟨before, middle, after, one, two, rfl⟩ := mem_run_append.mp matched
      exact (ihSecond two).trans (ihFirst one)

theorem group_eq_none {name : Text} (absent : ∀ entry ∈ groups, entry.1 ≠ name) : groups.group name = none := by
  rw [Groups.group, Option.map_eq_none_iff, List.find?_eq_none]
  exact fun entry member => by simpa using absent entry member

end Regex

end ActiveBgp.Python

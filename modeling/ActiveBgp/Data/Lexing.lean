import Mathlib.Computability.Language

namespace ActiveBgp.Data.Lexing

open Computability

/-! # Scanners

A scanner has a list of patterns.  The pattern that takes most of the input is used,
and the first of them where several take as much.  How much a pattern takes is found
by derivatives, which stop as soon as no word can follow.
-/

section Patterns

variable {α : Type}

inductive Pattern (α : Type) where
  | nothing
  | empty
  | letter (accepts : α → Bool)
  | append (first second : Pattern α)
  | either (first second : Pattern α)
  | many (inner : Pattern α)

namespace Pattern

def language : Pattern α → Language α
  | nothing => 0
  | empty => 1
  | letter accepts => {word | ∃ x, accepts x = true ∧ word = [x]}
  | append first second => first.language * second.language
  | either first second => first.language + second.language
  | many inner => inner.language∗

def nullable : Pattern α → Bool
  | nothing | letter _ => false
  | empty | many _ => true
  | append first second => first.nullable && second.nullable
  | either first second => first.nullable || second.nullable

def isNothing : Pattern α → Bool
  | nothing => true
  | _ => false

/-- Nothing follows nothing. -/
def follow (first second : Pattern α) : Pattern α := if first.isNothing then nothing else append first second

def choose (first second : Pattern α) : Pattern α :=
  if first.isNothing then second else if second.isNothing then first else either first second

/-- What may follow after a letter. -/
def deriv (x : α) : Pattern α → Pattern α
  | nothing | empty => nothing
  | letter accepts => if accepts x then empty else nothing
  | append first second =>
      if first.nullable then choose (follow (first.deriv x) second) (second.deriv x) else follow (first.deriv x) second
  | either first second => choose (first.deriv x) (second.deriv x)
  | many inner => follow (inner.deriv x) (many inner)

/-- The length of the longest beginning that is a word.  Nothing more is read once no word goes on. -/
def longest : Pattern α → List α → Option Nat
  | pattern, [] => if pattern.nullable then some 0 else none
  | pattern, x :: rest =>
      match pattern.deriv x with
      | nothing => if pattern.nullable then some 0 else none
      | empty => some 1
      | next =>
          match next.longest rest with
          | some count => some (count + 1)
          | none => if pattern.nullable then some 0 else none

end Pattern

/-- The rule whose pattern takes most, and the first of several. -/
def select {τ : Type} : List (Pattern α × τ) → List α → Option (τ × Nat)
  | [], _ => none
  | (pattern, action) :: rules, text =>
      match pattern.longest text, select rules text with
      | some count, some (other, more) => if count < more then some (other, more) else some (action, count)
      | some count, none => some (action, count)
      | none, found => found

end Patterns

section Meaning

variable {α : Type} {pattern first second : Pattern α} {x : α} {word text : List α}

namespace Pattern

theorem language_empty : (empty : Pattern α).language = 1 := rfl

theorem language_many (inner : Pattern α) : (many inner).language = inner.language∗ := rfl

theorem nullable_append : (append first second).nullable = (first.nullable && second.nullable) := rfl

theorem nullable_either : (either first second).nullable = (first.nullable || second.nullable) := rfl

theorem deriv_letter {accepts : α → Bool} : (letter accepts).deriv x = if accepts x then empty else nothing := rfl

theorem deriv_append : (append first second).deriv x =
    if first.nullable then choose (follow (first.deriv x) second) (second.deriv x)
    else follow (first.deriv x) second := rfl

theorem deriv_either : (either first second).deriv x = choose (first.deriv x) (second.deriv x) := rfl

theorem deriv_many (inner : Pattern α) : (many inner).deriv x = follow (inner.deriv x) (many inner) := rfl

theorem longest_nil (pattern : Pattern α) : pattern.longest [] = if pattern.nullable then some 0 else none := rfl

theorem language_of_isNothing (dead : pattern.isNothing = true) : pattern.language = 0 := by
  cases pattern with
  | nothing => rfl
  | _ => cases dead

theorem language_follow (first second : Pattern α) : (follow first second).language = first.language * second.language := by
  rw [follow]
  split
  · next dead => rw [language_of_isNothing dead, zero_mul]; rfl
  · rfl

theorem language_choose (first second : Pattern α) : (choose first second).language = first.language + second.language := by
  rw [choose]
  split
  · next dead => rw [language_of_isNothing dead, zero_add]
  · split
    · next dead => rw [language_of_isNothing dead, add_zero]
    · rfl

theorem nullable_iff : pattern.nullable = true ↔ [] ∈ pattern.language := by
  induction pattern with
  | nothing => exact ⟨nofun, nofun⟩
  | empty => exact ⟨fun _ => Language.nil_mem_one, fun _ => rfl⟩
  | letter accepts => exact ⟨nofun, fun ⟨_, _, same⟩ => nomatch same⟩
  | append first second ihFirst ihSecond =>
      rw [nullable_append, Bool.and_eq_true, ihFirst, ihSecond]
      constructor
      · rintro ⟨one, two⟩
        exact ⟨[], one, [], two, rfl⟩
      · rintro ⟨front, one, rest, two, joined⟩
        obtain ⟨rfl, rfl⟩ := List.append_eq_nil_iff.mp joined
        exact ⟨one, two⟩
  | either first second ihFirst ihSecond =>
      rw [nullable_either, Bool.or_eq_true, ihFirst, ihSecond]
      exact Iff.rfl
  | many inner => exact ⟨fun _ => Language.nil_mem_kstar _, fun _ => rfl⟩

theorem cons_mem_kstar {l : Language α} : x :: word ∈ l∗ ↔ ∃ front rest, word = front ++ rest ∧ x :: front ∈ l ∧ rest ∈ l∗ := by
  constructor
  · intro member
    obtain ⟨parts, joined, each⟩ := Language.mem_kstar_iff_exists_nonempty.mp member
    cases parts with
    | nil => cases joined
    | cons part others =>
        obtain ⟨own, some_letter⟩ := each part List.mem_cons_self
        obtain ⟨y, front, rfl⟩ := List.exists_cons_of_ne_nil some_letter
        cases joined
        exact ⟨front, others.flatten, rfl, own,
          Language.join_mem_kstar fun part later => (each part (List.mem_cons_of_mem _ later)).1⟩
  · rintro ⟨front, rest, rfl, own, later⟩
    obtain ⟨parts, rfl, each⟩ := later
    exact ⟨(x :: front) :: parts, rfl, List.forall_mem_cons.mpr ⟨own, each⟩⟩

theorem mem_deriv : word ∈ (pattern.deriv x).language ↔ x :: word ∈ pattern.language := by
  induction pattern generalizing word with
  | nothing => exact ⟨nofun, nofun⟩
  | empty => exact ⟨nofun, nofun⟩
  | letter accepts =>
      rw [deriv_letter]
      split
      · next accepted =>
          constructor
          · intro nil
            rw [language_empty, Language.mem_one] at nil
            exact ⟨x, accepted, nil ▸ rfl⟩
          · rintro ⟨y, _, same⟩
            cases same
            exact Language.nil_mem_one
      · next refused =>
          refine ⟨nofun, ?_⟩
          rintro ⟨y, accepted, same⟩
          cases same
          exact absurd accepted refused
  | append first second ihFirst ihSecond =>
      have split : x :: word ∈ (append first second).language ↔
          word ∈ (follow (first.deriv x) second).language ∨ [] ∈ first.language ∧ word ∈ (second.deriv x).language := by
        rw [language_follow, ihSecond]
        constructor
        · rintro ⟨front, one, rest, two, joined⟩
          cases front with
          | nil => cases joined; exact .inr ⟨one, two⟩
          | cons y front => cases joined; exact .inl ⟨front, ihFirst.mpr one, rest, two, rfl⟩
        · rintro (⟨front, one, rest, two, rfl⟩ | ⟨one, two⟩)
          · exact ⟨x :: front, ihFirst.mp one, rest, two, rfl⟩
          · exact ⟨[], one, x :: word, two, rfl⟩
      rw [split, deriv_append]
      by_cases null : first.nullable = true
      · rw [if_pos null, language_choose]
        exact or_congr_right (and_iff_right (nullable_iff.mp null)).symm
      · rw [if_neg null]
        exact (or_iff_left fun both => null (nullable_iff.mpr both.1)).symm
  | either first second ihFirst ihSecond =>
      rw [deriv_either, language_choose]
      exact or_congr ihFirst ihSecond
  | many inner ih =>
      rw [deriv_many, language_follow, language_many, cons_mem_kstar]
      constructor
      · rintro ⟨front, one, rest, two, rfl⟩
        exact ⟨front, rest, rfl, ih.mp one, two⟩
      · rintro ⟨front, rest, rfl, one, two⟩
        exact ⟨front, ih.mpr one, rest, two, rfl⟩

theorem longest_nothing (text : List α) : (nothing : Pattern α).longest text = none := by
  cases text <;> rfl

theorem longest_empty (text : List α) : (empty : Pattern α).longest text = some 0 := by
  cases text <;> rfl

theorem longest_cons (pattern : Pattern α) (x : α) (rest : List α) : pattern.longest (x :: rest) =
    match (pattern.deriv x).longest rest with
    | some count => some (count + 1)
    | none => if pattern.nullable then some 0 else none := by
  rw [longest]
  split
  · next dead => rw [dead, longest_nothing]
  · next last => rw [last, longest_empty]
  · rfl

theorem mem_many_letter {accepts : α → Bool} (all : ∀ x ∈ word, accepts x = true) :
    word ∈ (many (letter accepts)).language := by
  refine ⟨word.map ([·]), by rw [← List.flatMap_def, List.flatMap_singleton'], ?_⟩
  simp only [List.forall_mem_map]
  exact fun x inside => ⟨x, all x inside, rfl⟩

theorem longest_eq_none : pattern.longest text = none ↔ ∀ word, word <+: text → word ∉ pattern.language := by
  induction text generalizing pattern with
  | nil =>
      rw [longest_nil, ite_eq_right_iff]
      constructor
      · rintro absent word start member
        rw [List.prefix_nil.mp start] at member
        cases absent (nullable_iff.mpr member)
      · intro absent null
        exact absurd (nullable_iff.mp null) (absent [] List.nil_prefix)
  | cons x rest ih =>
      rw [longest_cons]
      cases later : (pattern.deriv x).longest rest with
      | some count =>
          refine ⟨nofun, fun absent => ?_⟩
          refine absurd later ?_
          rw [ih.mpr fun word start member => absent (x :: word) (List.cons_prefix_cons.mpr ⟨rfl, start⟩) (mem_deriv.mp member)]
          exact nofun
      | none =>
          simp only [ite_eq_right_iff]
          constructor
          · intro absent word start member
            cases word with
            | nil => cases absent (nullable_iff.mpr member)
            | cons y word =>
                obtain ⟨rfl, inner⟩ := List.cons_prefix_cons.mp start
                exact ih.mp later word inner (mem_deriv.mpr member)
          · intro absent null
            exact absurd (nullable_iff.mp null) (absent [] List.nil_prefix)

theorem longest_eq_some {count : Nat} : pattern.longest text = some count ↔
    ∃ word, word <+: text ∧ word.length = count ∧ word ∈ pattern.language ∧
      ∀ other, other <+: text → other ∈ pattern.language → other.length ≤ count := by
  induction text generalizing pattern count with
  | nil =>
      rw [longest_nil]
      by_cases null : pattern.nullable = true
      · rw [if_pos null, Option.some.injEq]
        constructor
        · rintro rfl
          refine ⟨[], List.nil_prefix, rfl, nullable_iff.mp null, fun other start _ => ?_⟩
          rw [List.prefix_nil.mp start]
          exact Nat.le_refl 0
        · rintro ⟨word, start, rfl, _, _⟩
          rw [List.prefix_nil.mp start]
          rfl
      · rw [if_neg null]
        refine ⟨nofun, ?_⟩
        rintro ⟨word, start, _, member, _⟩
        rw [List.prefix_nil.mp start] at member
        exact absurd (nullable_iff.mpr member) null
  | cons x rest ih =>
      rw [longest_cons]
      cases later : (pattern.deriv x).longest rest with
      | some more =>
          obtain ⟨word, start, length, member, most⟩ := ih.mp later
          have bound (other : List α) (begins : other <+: x :: rest) (inside : other ∈ pattern.language) :
              other.length ≤ more + 1 := by
            cases other with
            | nil => exact Nat.zero_le _
            | cons y other =>
                obtain ⟨rfl, inner⟩ := List.cons_prefix_cons.mp begins
                exact Nat.succ_le_succ (most other inner (mem_deriv.mpr inside))
          simp only [Option.some.injEq]
          constructor
          · rintro rfl
            exact ⟨x :: word, List.cons_prefix_cons.mpr ⟨rfl, start⟩, congrArg (· + 1) length, mem_deriv.mp member, bound⟩
          · rintro ⟨other, begins, rfl, inside, longer⟩
            have above := longer (x :: word) (List.cons_prefix_cons.mpr ⟨rfl, start⟩) (mem_deriv.mp member)
            rw [List.length_cons, length] at above
            exact Nat.le_antisymm above (bound other begins inside)
      | none =>
          have only (other : List α) (begins : other <+: x :: rest) (inside : other ∈ pattern.language) : other = [] := by
            cases other with
            | nil => rfl
            | cons y other =>
                obtain ⟨rfl, inner⟩ := List.cons_prefix_cons.mp begins
                exact absurd (mem_deriv.mpr inside) (longest_eq_none.mp later other inner)
          by_cases null : pattern.nullable = true
          · simp only [null, if_true, Option.some.injEq]
            constructor
            · rintro rfl
              refine ⟨[], List.nil_prefix, rfl, nullable_iff.mp null, fun other begins inside => ?_⟩
              rw [only other begins inside]
              exact Nat.le_refl 0
            · rintro ⟨other, begins, rfl, inside, _⟩
              rw [only other begins inside]
              rfl
          · rw [if_neg null]
            refine ⟨nofun, ?_⟩
            rintro ⟨other, begins, _, inside, _⟩
            rw [only other begins inside] at inside
            exact absurd (nullable_iff.mpr inside) null

theorem longest_of_mem (member : text ∈ pattern.language) : pattern.longest text = some text.length :=
  longest_eq_some.mpr ⟨text, List.prefix_rfl, rfl, member, fun _ start _ => start.length_le⟩

end Pattern

end Meaning

section Ends

variable {α τ : Type} {pattern : Pattern α} {x : α} {text : List α}

namespace Pattern

/-- No word goes on after the text with this letter. -/
def Stops (pattern : Pattern α) (text : List α) (x : α) : Prop := ∀ word ∈ pattern.language, ¬ text ++ [x] <+: word

/-- All letters of the words are of a kind. -/
def Within (kind : α → Prop) : Pattern α → Prop
  | nothing | empty => True
  | letter accepts => ∀ x, accepts x = true → kind x
  | append first second | either first second => first.Within kind ∧ second.Within kind
  | many inner => inner.Within kind

/-- Some letter of every word is of a kind. -/
def Needs (kind : α → Prop) : Pattern α → Prop
  | nothing => True
  | empty | many _ => False
  | letter accepts => ∀ x, accepts x = true → kind x
  | append first second => first.Needs kind ∨ second.Needs kind
  | either first second => first.Needs kind ∧ second.Needs kind

theorem Within.mem {kind : α → Prop} (within : pattern.Within kind) {word : List α} (member : word ∈ pattern.language) :
    ∀ x ∈ word, kind x := by
  induction pattern generalizing word with
  | nothing => cases member
  | empty =>
      rw [language_empty, Language.mem_one] at member
      simp [member]
  | letter accepts =>
      obtain ⟨x, accepted, rfl⟩ := member
      simpa using within x accepted
  | append first second ihFirst ihSecond =>
      obtain ⟨front, one, rest, two, rfl⟩ := member
      exact List.forall_mem_append.mpr ⟨ihFirst within.1 one, ihSecond within.2 two⟩
  | either first second ihFirst ihSecond => exact member.elim (ihFirst within.1) (ihSecond within.2)
  | many inner ih =>
      obtain ⟨parts, rfl, each⟩ := member
      intro x inside
      obtain ⟨part, among, own⟩ := List.mem_flatten.mp inside
      exact ih within (each part among) x own

theorem Needs.mem {kind : α → Prop} (needs : pattern.Needs kind) {word : List α} (member : word ∈ pattern.language) :
    ∃ x ∈ word, kind x := by
  induction pattern generalizing word with
  | nothing => cases member
  | empty | many _ => exact needs.elim
  | letter accepts =>
      obtain ⟨x, accepted, rfl⟩ := member
      exact ⟨x, List.mem_singleton_self x, needs x accepted⟩
  | append first second ihFirst ihSecond =>
      obtain ⟨front, one, rest, two, rfl⟩ := member
      rcases needs with needs | needs
      · obtain ⟨x, inside, own⟩ := ihFirst needs one
        exact ⟨x, List.mem_append_left _ inside, own⟩
      · obtain ⟨x, inside, own⟩ := ihSecond needs two
        exact ⟨x, List.mem_append_right _ inside, own⟩
  | either first second ihFirst ihSecond => exact member.elim (ihFirst needs.1) (ihSecond needs.2)

theorem Within.stops {kind : α → Prop} (within : pattern.Within kind) (other : ¬ kind x) (text : List α) :
    pattern.Stops text x := fun _ member start =>
  other (within.mem member x (start.subset (List.mem_append_right _ (List.mem_singleton_self x))))

/-- The pattern after a text. -/
def after (pattern : Pattern α) (text : List α) : Pattern α := text.foldl (fun pattern x => pattern.deriv x) pattern

theorem mem_after {word : List α} : word ∈ (pattern.after text).language ↔ text ++ word ∈ pattern.language := by
  induction text generalizing pattern with
  | nil => exact Iff.rfl
  | cons x rest ih => exact ih.trans mem_deriv

theorem nullable_after : (pattern.after text).nullable = true ↔ text ∈ pattern.language := by
  rw [nullable_iff, mem_after, List.append_nil]

theorem stops_of_after (dead : (pattern.after (text ++ [x])).isNothing = true) : pattern.Stops text x := by
  rintro word member ⟨more, rfl⟩
  have later := mem_after.mpr member
  rw [language_of_isNothing dead] at later
  exact later

/-- No word is longer than one letter. -/
def isShort : Pattern α → Bool
  | nothing | empty => true
  | _ => false

theorem stops_cons {y : α} (short : (pattern.deriv y).isShort = true) (text : List α) (x : α) :
    pattern.Stops (y :: text) x := by
  rintro word member ⟨more, rfl⟩
  have later : text ++ [x] ++ more ∈ (pattern.deriv y).language := mem_deriv.mpr member
  cases derived : pattern.deriv y with
  | nothing =>
      rw [derived] at later
      exact later
  | empty =>
      rw [derived, language_empty, Language.mem_one] at later
      simp at later
  | _ =>
      rw [derived] at short
      cases short

theorem not_mem_cons {y : α} (dead : (pattern.deriv y).isNothing = true) : y :: text ∉ pattern.language := by
  intro member
  have later := mem_deriv.mpr member
  rw [language_of_isNothing dead] at later
  exact later

theorem isShort_of_isNothing (dead : pattern.isNothing = true) : pattern.isShort = true := by
  cases pattern with
  | nothing => rfl
  | _ => cases dead

theorem Stops.either {first second : Pattern α} (one : first.Stops text x) (two : second.Stops text x) :
    (either first second).Stops text x := fun word member => member.elim (one word) (two word)

/-- What follows a letter with which no word goes on is not looked at. -/
theorem Stops.longest (stops : pattern.Stops text x) (rest : List α) :
    pattern.longest (text ++ x :: rest) = pattern.longest text := by
  induction text generalizing pattern with
  | nil =>
      have dead : (pattern.deriv x).longest rest = none := by
        refine longest_eq_none.mpr fun word _ member => ?_
        exact stops (x :: word) (mem_deriv.mp member) (List.cons_prefix_cons.mpr ⟨rfl, List.nil_prefix⟩)
      rw [List.nil_append, longest_cons, dead, longest_nil]
  | cons y text ih =>
      have later : (pattern.deriv y).Stops text x := fun word member start =>
        stops (y :: word) (mem_deriv.mp member) (List.cons_prefix_cons.mpr ⟨rfl, start⟩)
      rw [List.cons_append, longest_cons, longest_cons, ih later]

end Pattern

open Pattern

variable {rules front back : List (Pattern α × τ)} {action : τ} {count : Nat}

theorem select_cons (rule : Pattern α × τ) (others : List (Pattern α × τ)) (text : List α) :
    select (rule :: others) text = match rule.1.longest text, select others text with
      | some count, some (other, more) => if count < more then some (other, more) else some (rule.2, count)
      | some count, none => some (rule.2, count)
      | none, found => found := rfl

theorem select_append {rest : List α} (stops : ∀ x ∈ rest.head?, ∀ rule ∈ rules, rule.1.Stops text x) :
    select rules (text ++ rest) = select rules text := by
  cases rest with
  | nil => rw [List.append_nil]
  | cons x rest =>
      have each := stops x rfl
      clear stops
      induction rules with
      | nil => rfl
      | cons rule others ih =>
          obtain ⟨own, later⟩ := List.forall_mem_cons.mp each
          rw [select_cons, select_cons, own.longest, ih later]

theorem longest_of_select (chosen : select rules text = some (action, count)) :
    ∃ rule ∈ rules, rule.1.longest text = some count := by
  induction rules with
  | nil => cases chosen
  | cons rule others ih =>
      have later (found : select others text = some (action, count)) :
          ∃ other ∈ rule :: others, other.1.longest text = some count :=
        (ih found).imp fun _ inside => ⟨List.mem_cons_of_mem _ inside.1, inside.2⟩
      rw [select_cons] at chosen
      cases taken : rule.1.longest text <;> cases rest : select others text <;> simp only [taken, rest] at chosen
      · cases chosen
      · exact later (rest.trans chosen)
      · cases chosen
        exact ⟨rule, List.mem_cons_self, taken⟩
      · split at chosen
        · exact later (rest.trans chosen)
        · cases chosen
          exact ⟨rule, List.mem_cons_self, taken⟩

theorem select_pos (null : ∀ rule ∈ rules, rule.1.nullable = false) (chosen : select rules text = some (action, count)) :
    0 < count ∧ count ≤ text.length := by
  obtain ⟨rule, inside, taken⟩ := longest_of_select chosen
  obtain ⟨word, start, rfl, member, _⟩ := longest_eq_some.mp taken
  refine ⟨List.length_pos_iff.mpr ?_, start.length_le⟩
  rintro rfl
  exact Bool.false_ne_true ((null rule inside).symm.trans (nullable_iff.mpr member))

/-- A whole text is taken by the first rule of which it is a word. -/
theorem select_whole (member : text ∈ pattern.language) (first : ∀ rule ∈ front, text ∉ rule.1.language) :
    select (front ++ (pattern, action) :: back) text = some (action, text.length) := by
  have bound {rules : List (Pattern α × τ)} {action : τ} {count : Nat} (chosen : select rules text = some (action, count)) :
      count ≤ text.length := by
    obtain ⟨rule, _, taken⟩ := longest_of_select chosen
    obtain ⟨word, start, rfl, _⟩ := longest_eq_some.mp taken
    exact start.length_le
  induction front with
  | nil =>
      rw [List.nil_append, select_cons, longest_of_mem member]
      cases later : select back text with
      | none => rfl
      | some found => exact if_neg (Nat.not_lt.mpr (bound later))
  | cons rule others ih =>
      obtain ⟨own, later⟩ := List.forall_mem_cons.mp first
      rw [List.cons_append, select_cons, ih later]
      cases taken : rule.1.longest text with
      | none => rfl
      | some count =>
          obtain ⟨word, start, rfl, inside, _⟩ := longest_eq_some.mp taken
          refine if_pos (lt_of_le_of_ne start.length_le fun same => ?_)
          exact own (start.eq_of_length same ▸ inside)

end Ends

end ActiveBgp.Data.Lexing

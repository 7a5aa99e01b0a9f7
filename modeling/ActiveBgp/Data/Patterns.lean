import Mathlib.Computability.Language

namespace ActiveBgp.Data.Patterns

open Computability

/-! # Patterns without alternatives

A pattern is a list of pieces, each of which stands for one letter of a kind or for
any number of them.  Words are read from left to right: a position in the pattern
is entered when its piece takes the next letter, and a piece that may stand for
nothing can be skipped.
-/

section Languages

variable {α : Type}

/-- One letter, or any number of letters, of a kind. -/
inductive Piece (α : Type) where
  | once (accepts : α → Prop)
  | many (accepts : α → Prop)

namespace Piece

def accepts : Piece α → α → Prop
  | once accepts => accepts
  | many accepts => accepts

def isMany : Piece α → Bool
  | once _ => false
  | many _ => true

def words : Piece α → Language α
  | once accepts => {word | ∃ letter, accepts letter ∧ word = [letter]}
  | many accepts => {word | ∀ letter ∈ word, accepts letter}

end Piece

def language (pattern : List (Piece α)) : Language α := (pattern.map Piece.words).prod

variable {accepts : α → Prop} {rest : List (Piece α)} {word : List α} {letter : α}

theorem mem_language_nil : word ∈ language ([] : List (Piece α)) ↔ word = [] := by
  simp [language, Language.mem_one]

theorem nil_not_mem_once : [] ∉ language (.once accepts :: rest) := by
  rintro ⟨front, ⟨letter, _, rfl⟩, tail, _, joined⟩
  cases joined

theorem cons_mem_once : letter :: word ∈ language (.once accepts :: rest) ↔ accepts letter ∧ word ∈ language rest := by
  constructor
  · rintro ⟨front, ⟨first, accepted, rfl⟩, tail, member, joined⟩
    cases joined
    exact ⟨accepted, member⟩
  · rintro ⟨accepted, member⟩
    exact ⟨[letter], ⟨letter, accepted, rfl⟩, word, member, rfl⟩

theorem mem_many_of_mem (member : word ∈ language rest) : word ∈ language (.many accepts :: rest) :=
  ⟨[], nofun, word, member, rfl⟩

/-- A piece for many letters takes a letter and stays, or is skipped. -/
theorem cons_mem_many : letter :: word ∈ language (.many accepts :: rest) ↔
    accepts letter ∧ word ∈ language (.many accepts :: rest) ∨ letter :: word ∈ language rest := by
  constructor
  · rintro ⟨front, all, tail, member, joined⟩
    cases front with
    | nil => exact .inr (by cases joined; exact member)
    | cons first others =>
        obtain ⟨accepted, later⟩ := List.forall_mem_cons.mp all
        cases joined
        exact .inl ⟨accepted, others, later, tail, member, rfl⟩
  · rintro (⟨accepted, front, all, tail, member, joined⟩ | member)
    · cases joined
      exact ⟨letter :: front, List.forall_mem_cons.mpr ⟨accepted, all⟩, tail, member, rfl⟩
    · exact mem_many_of_mem member

theorem nil_mem_many : [] ∈ language (.many accepts :: rest) ↔ [] ∈ language rest := by
  refine ⟨?_, mem_many_of_mem⟩
  rintro ⟨front, _, tail, member, joined⟩
  obtain ⟨rfl, rfl⟩ := List.append_eq_nil_iff.mp joined
  exact member

end Languages

section Positions

variable {α : Type} {pattern : List (Piece α)} {index first last : Nat} {letter : α} {word : List α}

/-- The words that start with a letter of the first piece, if there is one. -/
def entered : List (Piece α) → Language α
  | [] => {[]}
  | piece :: rest => {word | ∃ letter tail, word = letter :: tail ∧ piece.accepts letter ∧
      tail ∈ language (if piece.isMany then piece :: rest else rest)}

/-- The position after a letter. -/
def Piece.next (piece : Piece α) (index : Nat) : Nat := if piece.isMany then index else index + 1

/-- All pieces from one position to another can be skipped. -/
structure Skips (pattern : List (Piece α)) (first last : Nat) : Prop where
  le : first ≤ last
  bound : last ≤ pattern.length
  many : ∀ index, first ≤ index → index < last → ∃ piece ∈ pattern[index]?, piece.isMany

theorem Skips.refl (bound : first ≤ pattern.length) : Skips pattern first first :=
  ⟨Nat.le_refl first, bound, fun _ after before => absurd after (Nat.not_le.mpr before)⟩

theorem Skips.step (skips : Skips pattern (first + 1) last) (here : ∃ piece ∈ pattern[first]?, piece.isMany) :
    Skips pattern first last := by
  refine ⟨Nat.le_of_succ_le skips.le, skips.bound, fun index after before => ?_⟩
  rcases Nat.eq_or_lt_of_le after with rfl | later
  · exact here
  · exact skips.many index later before

theorem Skips.tail (skips : Skips pattern first last) (different : first < last) : Skips pattern (first + 1) last :=
  ⟨different, skips.bound, fun index after before => skips.many index (Nat.le_of_succ_le after) before⟩

theorem Skips.concat (skips : Skips pattern first last) (here : ∃ piece ∈ pattern[last]?, piece.isMany) :
    Skips pattern first (last + 1) := by
  obtain ⟨piece, present, many⟩ := here
  obtain ⟨inside, _⟩ := List.getElem?_eq_some_iff.mp present
  refine ⟨Nat.le_succ_of_le skips.le, inside, fun index after before => ?_⟩
  rcases Nat.eq_or_lt_of_le (Nat.le_of_lt_succ before) with rfl | earlier
  · exact ⟨piece, present, many⟩
  · exact skips.many index after earlier

theorem drop_eq_cons {piece : Piece α} (here : pattern[index]? = some piece) :
    pattern.drop index = piece :: pattern.drop (index + 1) := by
  obtain ⟨bound, rfl⟩ := List.getElem?_eq_some_iff.mp here
  exact List.drop_eq_getElem_cons bound

theorem exists_piece (bound : index < pattern.length) : ∃ piece, pattern[index]? = some piece :=
  ⟨pattern[index], List.getElem?_eq_getElem bound⟩

theorem nil_mem_entered : [] ∈ entered (pattern.drop index) ↔ pattern.length ≤ index := by
  rcases Nat.lt_or_ge index pattern.length with inside | outside
  · obtain ⟨piece, here⟩ := exists_piece inside
    rw [drop_eq_cons here]
    refine ⟨?_, fun beyond => absurd inside (Nat.not_lt.mpr beyond)⟩
    rintro ⟨letter, tail, joined, _⟩
    cases joined
  · rw [List.drop_eq_nil_of_le outside]
    exact ⟨fun _ => outside, fun _ => rfl⟩

theorem cons_mem_entered : letter :: word ∈ entered (pattern.drop index) ↔
    ∃ piece ∈ pattern[index]?, piece.accepts letter ∧ word ∈ language (pattern.drop (piece.next index)) := by
  rcases Nat.lt_or_ge index pattern.length with inside | outside
  · obtain ⟨piece, here⟩ := exists_piece inside
    have after : (if piece.isMany then piece :: pattern.drop (index + 1) else pattern.drop (index + 1)) =
        pattern.drop (piece.next index) := by
      rw [Piece.next]
      split
      · rw [drop_eq_cons here]
      · rfl
    rw [here, drop_eq_cons here]
    constructor
    · rintro ⟨first, tail, joined, accepted, member⟩
      cases joined
      exact ⟨piece, rfl, accepted, after ▸ member⟩
    · rintro ⟨other, same, accepted, member⟩
      cases same
      exact ⟨letter, word, rfl, accepted, after ▸ member⟩
  · rw [List.drop_eq_nil_of_le outside, List.getElem?_eq_none outside]
    exact ⟨fun impossible => (List.cons_ne_nil _ _ impossible).elim, fun ⟨_, absent, _⟩ => by cases absent⟩

theorem mem_language_of_entered {pattern : List (Piece α)} (member : word ∈ entered pattern) : word ∈ language pattern := by
  cases pattern with
  | nil => exact mem_language_nil.mpr member
  | cons piece rest =>
      obtain ⟨letter, tail, rfl, accepted, later⟩ := member
      cases piece with
      | once accepts => exact cons_mem_once.mpr ⟨accepted, later⟩
      | many accepts => exact cons_mem_many.mpr (.inl ⟨accepted, later⟩)

theorem mem_language_drop (bound : first ≤ pattern.length) :
    word ∈ language (pattern.drop first) ↔ ∃ last, Skips pattern first last ∧ word ∈ entered (pattern.drop last) := by
  induction remaining : pattern.length - first generalizing first with
  | zero =>
      have ended : first = pattern.length := by omega
      subst ended
      rw [List.drop_length, mem_language_nil]
      constructor
      · rintro rfl
        exact ⟨_, .refl bound, by rw [List.drop_length]; rfl⟩
      · rintro ⟨last, skips, member⟩
        rw [List.drop_eq_nil_of_le skips.le] at member
        exact member
  | succ more ih =>
      obtain ⟨piece, here⟩ := exists_piece (show first < pattern.length by omega)
      have later := @ih (first + 1) (by omega) (by omega)
      constructor
      · intro member
        rw [drop_eq_cons here] at member
        cases piece with
        | once accepts =>
            refine ⟨first, .refl bound, ?_⟩
            cases word with
            | nil => exact absurd member nil_not_mem_once
            | cons letter word =>
                obtain ⟨accepted, rest⟩ := cons_mem_once.mp member
                exact cons_mem_entered.mpr ⟨_, here, accepted, rest⟩
        | many accepts =>
            have skipped (rest : word ∈ language (pattern.drop (first + 1))) :
                ∃ last, Skips pattern first last ∧ word ∈ entered (pattern.drop last) := by
              obtain ⟨last, skips, entry⟩ := later.mp rest
              exact ⟨last, skips.step ⟨_, here, rfl⟩, entry⟩
            cases word with
            | nil => exact skipped (nil_mem_many.mp member)
            | cons letter word =>
                rcases cons_mem_many.mp member with ⟨accepted, rest⟩ | rest
                · refine ⟨first, .refl bound, cons_mem_entered.mpr ⟨_, here, accepted, ?_⟩⟩
                  have same : pattern.drop ((Piece.many accepts).next first) = .many accepts :: pattern.drop (first + 1) :=
                    drop_eq_cons here
                  rw [same]
                  exact rest
                · exact skipped rest
      · rintro ⟨last, skips, entry⟩
        rcases Nat.eq_or_lt_of_le skips.le with rfl | different
        · exact mem_language_of_entered entry
        · have rest := later.mpr ⟨last, skips.tail different, entry⟩
          obtain ⟨other, same, many⟩ := skips.many first (Nat.le_refl first) different
          rw [drop_eq_cons same]
          cases other with
          | once accepts => cases many
          | many accepts => exact mem_many_of_mem rest

end Positions

section Meeting

variable {α : Type} {pattern mask : List (Piece α)} {accepts : α → Prop} {marked : Nat → Prop} {low : Nat}

/-- Some word of the mask can be read from a marked position. -/
def Meets (pattern : List (Piece α)) (marked : Nat → Prop) (mask : List (Piece α)) : Prop :=
  ∃ index, marked index ∧ ∃ word ∈ entered (pattern.drop index), word ∈ language mask

/-- The positions after one letter of a kind. -/
def Advanced (pattern : List (Piece α)) (accepts : α → Prop) (marked : Nat → Prop) (last : Nat) : Prop :=
  ∃ index, marked index ∧ ∃ piece ∈ pattern[index]?, (∃ letter, piece.accepts letter ∧ accepts letter) ∧
    Skips pattern (piece.next index) last

theorem meets_nil (bound : ∀ index, marked index → index ≤ pattern.length) :
    Meets pattern marked [] ↔ marked pattern.length := by
  constructor
  · rintro ⟨index, mark, word, entry, member⟩
    rw [mem_language_nil.mp member] at entry
    exact Nat.le_antisymm (bound index mark) (nil_mem_entered.mp entry) ▸ mark
  · intro mark
    exact ⟨_, mark, [], nil_mem_entered.mpr (Nat.le_refl _), mem_language_nil.mpr rfl⟩

theorem next_le {piece : Piece α} {index : Nat} (here : piece ∈ pattern[index]?) : piece.next index ≤ pattern.length := by
  obtain ⟨inside, _⟩ := List.getElem?_eq_some_iff.mp here
  rw [Piece.next]
  split <;> omega

theorem meets_once : Meets pattern marked (.once accepts :: mask) ↔ Meets pattern (Advanced pattern accepts marked) mask := by
  constructor
  · rintro ⟨index, mark, word, entry, member⟩
    cases word with
    | nil => exact absurd member nil_not_mem_once
    | cons letter word =>
        obtain ⟨accepted, later⟩ := cons_mem_once.mp member
        obtain ⟨piece, here, takes, rest⟩ := cons_mem_entered.mp entry
        obtain ⟨last, skips, again⟩ := (mem_language_drop (next_le here)).mp rest
        exact ⟨last, ⟨index, mark, piece, here, ⟨letter, takes, accepted⟩, skips⟩, word, again, later⟩
  · rintro ⟨last, ⟨index, mark, piece, here, ⟨letter, takes, accepted⟩, skips⟩, word, again, later⟩
    have rest := (mem_language_drop (next_le here)).mpr ⟨last, skips, again⟩
    exact ⟨index, mark, letter :: word, cons_mem_entered.mpr ⟨piece, here, takes, rest⟩,
      cons_mem_once.mpr ⟨accepted, later⟩⟩

section Spread

variable (inhabited : ∀ piece ∈ pattern, ∃ letter, piece.accepts letter)

theorem le_of_entered {front word : List α} {index : Nat} (bound : index ≤ pattern.length)
    (entry : front ++ word ∈ entered (pattern.drop index)) :
    ∃ last, index ≤ last ∧ last ≤ pattern.length ∧ word ∈ entered (pattern.drop last) := by
  induction front generalizing index with
  | nil => exact ⟨index, Nat.le_refl index, bound, entry⟩
  | cons letter front ih =>
      obtain ⟨piece, here, _, rest⟩ := cons_mem_entered.mp entry
      obtain ⟨middle, skips, again⟩ := (mem_language_drop (next_le here)).mp rest
      obtain ⟨last, further, inside, entry⟩ := ih skips.bound again
      have advance : index ≤ piece.next index := by
        rw [Piece.next]
        split <;> omega
      exact ⟨last, (advance.trans skips.le).trans further, inside, entry⟩

include inhabited in
theorem exists_front {word : List α} {first last : Nat} (le : first ≤ last) (bound : last ≤ pattern.length)
    (entry : word ∈ entered (pattern.drop last)) : ∃ front, front ++ word ∈ entered (pattern.drop first) := by
  induction distance : last - first generalizing first with
  | zero =>
      have same : first = last := by omega
      exact ⟨[], same ▸ entry⟩
  | succ more ih =>
      obtain ⟨piece, here⟩ := exists_piece (show first < pattern.length by omega)
      obtain ⟨letter, takes⟩ := inhabited piece (List.mem_of_getElem? here)
      obtain ⟨front, later⟩ := @ih (first + 1) (by omega) (by omega)
      refine ⟨letter :: front, cons_mem_entered.mpr ⟨piece, here, takes, ?_⟩⟩
      have rest := mem_language_of_entered later
      cases piece with
      | once accepts => exact rest
      | many accepts =>
          have stays : pattern.drop ((Piece.many accepts).next first) = .many accepts :: pattern.drop (first + 1) :=
            drop_eq_cons here
          rw [stays]
          exact mem_many_of_mem rest

include inhabited in
/-- Any number of letters of the mask mark all positions from the lowest on. -/
theorem meets_many (lowest : marked low) (least : ∀ index, marked index → low ≤ index)
    (bound : ∀ index, marked index → index ≤ pattern.length) :
    Meets pattern marked (.many (fun _ => True) :: mask) ↔
      Meets pattern (fun index => low ≤ index ∧ index ≤ pattern.length) mask := by
  constructor
  · rintro ⟨index, mark, word, entry, front, _, tail, member, joined⟩
    rw [show word = front ++ tail from joined.symm] at entry
    obtain ⟨last, further, inside, again⟩ := le_of_entered (bound index mark) entry
    exact ⟨last, ⟨(least index mark).trans further, inside⟩, tail, again, member⟩
  · rintro ⟨last, ⟨further, inside⟩, word, entry, member⟩
    obtain ⟨front, again⟩ := exists_front inhabited further inside entry
    exact ⟨low, lowest, front ++ word, again, front, fun _ _ => trivial, word, member, rfl⟩

end Spread

end Meeting

end ActiveBgp.Data.Patterns

import ActiveBgp.Python.Text

namespace ActiveBgp.Python

namespace Text

def Blank (text : Text) : Prop := ∀ char ∈ text, isSpace char = true

section Numbers

variable {text blanks front rest : Text} {number : Int} {char : Char}

def spaces : List Nat :=
  [9, 10, 11, 12, 13, 0x20, 0x85, 0xa0, 0x1680, 0x2000, 0x2001, 0x2002, 0x2003, 0x2004, 0x2005, 0x2006, 0x2007, 0x2008,
    0x2009, 0x200a, 0x2028, 0x2029, 0x202f, 0x205f, 0x3000]

theorem mem_spaces (space : isSpace char = true) : char.toNat ∈ spaces := by
  simp only [isSpace, decide_eq_true_eq, Bool.decide_or, Bool.decide_and, Bool.or_eq_true, Bool.and_eq_true, spaces,
    List.mem_cons, List.not_mem_nil, or_false] at space ⊢
  omega

theorem isSpace_of_digitValue {digit : Nat} (found : digitValue char = some digit) : isSpace char = false := by
  by_contra space
  have none : ∀ code ∈ spaces, (digitZeros.find? fun base => base ≤ code ∧ code < base + 10) = none := by decide
  rw [digitValue, none _ (mem_spaces (Bool.not_eq_false _ ▸ space))] at found
  contradiction

theorem digitsValue_nonspace {digits : Text} {value result : Nat} {afterDigit : Bool}
    (parsed : digitsValue value afterDigit digits = some result) : ∀ char ∈ digits, isSpace char = false := by
  induction digits generalizing value afterDigit with
  | nil => simp
  | cons first rest ih =>
      simp only [digitsValue] at parsed
      split at parsed
      · rename_i underscore
        split at parsed
        · exact List.forall_mem_cons.mpr ⟨by rw [underscore]; decide, ih parsed⟩
        · contradiction
      · split at parsed
        · rename_i digit found
          exact List.forall_mem_cons.mpr ⟨isSpace_of_digitValue found, ih parsed⟩
        · contradiction

theorem strip_nonspace (parsed : toInt? text = some number) : ∀ char ∈ strip text, isSpace char = false := by
  rw [toInt?] at parsed
  split at parsed
  · rename_i digits same
    obtain ⟨result, found, _⟩ := Option.map_eq_some_iff.mp parsed
    rw [same]
    exact List.forall_mem_cons.mpr ⟨by decide, digitsValue_nonspace found⟩
  · rename_i digits same
    obtain ⟨result, found, _⟩ := Option.map_eq_some_iff.mp parsed
    rw [same]
    exact List.forall_mem_cons.mpr ⟨by decide, digitsValue_nonspace found⟩
  · obtain ⟨result, found, _⟩ := Option.map_eq_some_iff.mp parsed
    exact digitsValue_nonspace found

theorem strip_blank_append (blank : Blank blanks) (text : Text) : strip (blanks ++ text) = strip text := by
  rw [strip, List.dropWhile_append_of_pos blank, ← strip]

theorem strip_append_blank (blank : Blank blanks) (text : Text) : strip (text ++ blanks) = strip text := by
  unfold strip
  rw [List.dropWhile_append]
  split
  · rename_i empty
    have nothing : blanks.dropWhile isSpace = [] := List.dropWhile_eq_nil_iff.mpr blank
    rw [nothing, List.isEmpty_iff.mp empty]
  · rw [List.rdropWhile, List.rdropWhile, List.reverse_append, List.dropWhile_append_of_pos]
    intro char member
    exact blank char (List.mem_reverse.mp member)

theorem strip_of_blank (blank : Blank blanks) : strip blanks = [] := strip_append_blank blank []

theorem toInt?_blank_append (blank : Blank blanks) (text : Text) : toInt? (blanks ++ text) = toInt? text := by
  rw [toInt?, toInt?, strip_blank_append blank]

theorem toInt?_append_blank (blank : Blank blanks) (text : Text) : toInt? (text ++ blanks) = toInt? text := by
  rw [toInt?, toInt?, strip_append_blank blank]

theorem not_blank_of_toInt? (parsed : toInt? text = some number) : ¬ Blank text := by
  intro blank
  rw [toInt?, strip_of_blank blank] at parsed
  contradiction

theorem blank_of_toInt?_append (filled : ¬ Blank front) (parsed : toInt? (front ++ ' ' :: rest) = some number) :
    Blank rest := by
  have outside : ' ' ∉ strip (front ++ ' ' :: rest) := fun member => by
    have nonspace := strip_nonspace parsed ' ' member
    revert nonspace
    decide
  intro char member
  by_contra nonspace
  refine outside ?_
  obtain ⟨left, right, rfl⟩ := List.append_of_mem member
  have started : ¬ (front.dropWhile isSpace).isEmpty = true := by
    rw [List.isEmpty_iff, List.dropWhile_eq_nil_iff]
    exact filled
  have ended : ¬ isSpace char = true := nonspace
  rw [strip, List.dropWhile_append, if_neg started, List.rdropWhile]
  simp only [List.reverse_append, List.reverse_cons, List.append_assoc, List.dropWhile_append, List.mem_reverse]
  split
  · simp [ended]
  · simp

end Numbers

section Joined

/-- Texts that keep their meaning when blanks are put around them, and that no blank separates into two. -/
structure Items (good : Text → Prop) : Prop where
  filled : ∀ text, good text → ¬ Blank text
  single : ∀ front rest, good front → good (front ++ ' ' :: rest) → Blank rest
  behind : ∀ text blanks, Blank blanks → (good (text ++ blanks) ↔ good text)
  before : ∀ text blanks, Blank blanks → (good (blanks ++ text) ↔ good text)

/-- No blank character stands next to a joint. -/
def Tight (items : List Text) : Prop :=
  ∀ before first second after, items = before ++ first :: second :: after →
    ' ' ∉ first.rtakeWhile isSpace ∧ ' ' ∉ second.takeWhile isSpace

def joined (items : List Text) : Text := " ".toList.intercalate items

theorem joined_cons_cons (first second : Text) (rest : List Text) :
    joined (first :: second :: rest) = first ++ ' ' :: joined (second :: rest) := by
  simp [joined, List.intercalate_cons_cons]

@[simp] theorem joined_singleton (item : Text) : joined [item] = item := by simp [joined]

theorem joined_starts (item : Text) (rest : List Text) : ∃ tail, joined (item :: rest) = item ++ tail := by
  cases rest with
  | nil => exact ⟨[], by simp⟩
  | cons next rest => exact ⟨_, joined_cons_cons item next rest⟩

theorem Tight.tail {first : Text} {rest : List Text} (tight : Tight (first :: rest)) : Tight rest :=
  fun before one two after same => tight (first :: before) one two after (by rw [same, List.cons_append])

theorem Blank.of_append_left {first second : Text} (blank : Blank (first ++ second)) : Blank first :=
  fun char member => blank char (List.mem_append_left _ member)

theorem mem_trailing {text rest : Text} (blank : Blank rest) : ' ' ∈ (text ++ ' ' :: rest).rtakeWhile isSpace := by
  have space : isSpace ' ' = true := by decide
  rw [List.rtakeWhile, List.mem_reverse, List.reverse_append, List.reverse_cons, List.append_assoc,
    List.takeWhile_append_of_pos fun char member => blank char (List.mem_reverse.mp member)]
  simp [space]

theorem mem_leading {text rest blanks others : Text} (filled : ¬ Blank text) (blank : Blank blanks)
    (same : text ++ rest = blanks ++ ' ' :: others) : ' ' ∈ text.takeWhile isSpace := by
  have space : isSpace ' ' = true := by decide
  induction text generalizing blanks with
  | nil => exact absurd (by simp [Blank]) filled
  | cons char text ih =>
      cases blanks with
      | nil =>
          obtain ⟨rfl, _⟩ := List.cons.inj same
          simp [space]
      | cons first blanks =>
          obtain ⟨rfl, tails⟩ := List.cons.inj same
          obtain ⟨now, later⟩ := List.forall_mem_cons.mp blank
          rw [List.takeWhile_cons_of_pos now]
          exact List.mem_cons_of_mem _ (ih (fun all => filled (List.forall_mem_cons.mpr ⟨now, all⟩)) later tails)

variable {good : Text → Prop} (items : Items good)

include items

theorem Items.joined_filled {first : Text} {rest : List Text} (isGood : good first) : ¬ Blank (joined (first :: rest)) := by
  cases rest with
  | nil =>
      rw [joined_singleton]
      exact items.filled first isGood
  | cons second rest =>
      rw [joined_cons_cons]
      exact fun blank => items.filled first isGood blank.of_append_left

/-- The first item of a tight joint is the only one that the text can start with. -/
theorem Items.first_unique {item other next text : Text} {rest : List Text} (itemGood : good item) (otherGood : good other)
    (nextGood : good next) (behind : ' ' ∉ item.rtakeWhile isSpace) (ahead : ' ' ∉ next.takeWhile isSpace)
    (same : item ++ ' ' :: joined (next :: rest) = other ++ ' ' :: text) : item = other := by
  rcases List.append_eq_append_iff.mp same with ⟨more, longer, tails⟩ | ⟨more, longer, tails⟩
  · cases more with
    | nil => simpa using longer.symm
    | cons char more =>
        obtain ⟨rfl, ends⟩ := List.cons.inj tails
        have blank := items.single item more itemGood (longer ▸ otherGood)
        -- The blanks that the other item ends with are those that the next one starts with.
        obtain ⟨tail, starts⟩ := joined_starts next rest
        rw [starts] at ends
        exact absurd (mem_leading (items.filled next nextGood) blank ends) ahead
  · cases more with
    | nil => simpa using longer
    | cons char more =>
        obtain ⟨rfl, _⟩ := List.cons.inj tails
        have blank := items.single other more otherGood (longer ▸ itemGood)
        exact absurd (longer ▸ mem_trailing blank) behind

theorem Items.joined_injective {first second : List Text} (firstGood : ∀ item ∈ first, good item)
    (secondGood : ∀ item ∈ second, good item) (tight : Tight first) (same : joined first = joined second) :
    first = second := by
  have nonempty {item : Text} {rest : List Text} (isGood : good item) : joined (item :: rest) ≠ [] := fun empty =>
    items.joined_filled isGood (by rw [empty]; simp [Blank])
  -- One item is never several.
  have alone {item other next : Text} {rest : List Text} (isGood : good item) (otherGood : good other)
      (nextGood : good next) (same : item = other ++ ' ' :: joined (next :: rest)) : False :=
    items.joined_filled nextGood (items.single other _ otherGood (same ▸ isGood))
  induction first generalizing second with
  | nil =>
      cases second with
      | nil => rfl
      | cons item rest => exact absurd same.symm (nonempty (secondGood item (by simp)))
  | cons item rest ih =>
      cases second with
      | nil => exact absurd same (nonempty (firstGood item (by simp)))
      | cons other others =>
      obtain ⟨itemGood, restGood⟩ := List.forall_mem_cons.mp firstGood
      obtain ⟨otherGood, othersGood⟩ := List.forall_mem_cons.mp secondGood
      cases rest with
      | nil =>
          cases others with
          | nil => simpa using same
          | cons next others =>
              rw [joined_singleton, joined_cons_cons] at same
              exact (alone itemGood otherGood (othersGood next (by simp)) same).elim
      | cons next rest =>
          cases others with
          | nil =>
              rw [joined_singleton, joined_cons_cons] at same
              exact (alone otherGood itemGood (restGood next (by simp)) same.symm).elim
          | cons following others =>
              obtain ⟨behind, ahead⟩ := tight [] item next rest rfl
              rw [joined_cons_cons, joined_cons_cons] at same
              obtain rfl := items.first_unique itemGood otherGood (restGood next (by simp)) behind ahead same
              have later : joined (next :: rest) = joined (following :: others) := (List.cons.inj (List.append_cancel_left same)).2
              rw [ih restGood othersGood tight.tail later]

omit items in
theorem joined_replace (before after : List Text) {first second first' second' : Text}
    (same : first ++ ' ' :: second = first' ++ ' ' :: second') :
    joined (before ++ first :: second :: after) = joined (before ++ first' :: second' :: after) := by
  have pair : joined (first :: second :: after) = joined (first' :: second' :: after) := by
    cases after with
    | nil => simpa [joined_cons_cons] using same
    | cons third after =>
        simp only [joined_cons_cons]
        have longer := congrArg (· ++ ' ' :: joined (third :: after)) same
        simpa using longer
  induction before with
  | nil => exact pair
  | cons item before ih =>
      cases before with
      | nil => simpa [joined_cons_cons] using pair
      | cons next before => simpa [joined_cons_cons] using ih

/-- Items that are not tight are joined to the text of other items. -/
theorem Items.joined_shared {list : List Text} (allGood : ∀ item ∈ list, good item) (loose : ¬ Tight list) :
    ∃ other, (∀ item ∈ other, good item) ∧ joined other = joined list ∧ other ≠ list ∧ (other = [] ↔ list = []) := by
  simp only [Tight, not_forall] at loose
  obtain ⟨before, first, second, after, rfl, loose⟩ := loose
  have firstGood : good first := allGood first (by simp)
  have secondGood : good second := allGood second (by simp)
  -- The blank goes from one side of the joint to the other.
  have move (first' second' : Text) (good₁ : good first') (good₂ : good second') (different : first' ≠ first)
      (same : first' ++ ' ' :: second' = first ++ ' ' :: second) :
      ∃ other, (∀ item ∈ other, good item) ∧ joined other = joined (before ++ first :: second :: after) ∧
        other ≠ before ++ first :: second :: after ∧ (other = [] ↔ before ++ first :: second :: after = []) := by
    refine ⟨before ++ first' :: second' :: after, fun item member => ?_, joined_replace before after same, ?_, by simp⟩
    · simp only [List.mem_append, List.mem_cons] at member
      rcases member with earlier | rfl | rfl | later
      · exact allGood item (List.mem_append_left _ earlier)
      · exact good₁
      · exact good₂
      · exact allGood item (by simp [later])
    · intro equal
      exact different (List.cons.inj (List.append_cancel_left equal)).1
  by_cases behind : ' ' ∈ first.rtakeWhile isSpace
  · obtain ⟨left, right, split⟩ := List.append_of_mem behind
    have blank : Blank (left ++ ' ' :: right) := fun char member => List.mem_rtakeWhile_imp (split ▸ member)
    have blankRight : Blank (right ++ [' ']) := fun char member => blank char (by
      simp only [List.mem_append, List.mem_cons, List.not_mem_nil, or_false] at member ⊢
      exact .inr member.symm)
    have whole : first.rdropWhile isSpace ++ (left ++ ' ' :: right) = first := by
      rw [← split, List.rdropWhile_append_rtakeWhile]
    have stem : good (first.rdropWhile isSpace) := (items.behind _ _ blank).mp (by rwa [whole])
    refine move (first.rdropWhile isSpace ++ left) (right ++ ' ' :: second)
      ((items.behind _ _ blank.of_append_left).mpr stem) ?_ (fun same => ?_) ?_
    · rw [List.append_cons]
      exact (items.before second _ blankRight).mpr secondGood
    · have longer := congrArg List.length (same.trans whole.symm)
      simp at longer
    · nth_rewrite 2 [← whole]
      simp
  · have ahead : ' ' ∈ second.takeWhile isSpace := not_not.mp fun outside => loose ⟨behind, outside⟩
    obtain ⟨left, right, split⟩ := List.append_of_mem ahead
    have blank : Blank (left ++ ' ' :: right) := fun char member => List.mem_takeWhile_imp (split ▸ member)
    have blankLeft : Blank (' ' :: left) := fun char member => blank char (by
      simp only [List.mem_append, List.mem_cons] at member ⊢
      exact member.elim (fun same => .inr (.inl same)) .inl)
    have blankRight : Blank right := fun char member => blank char (by simp [member])
    have whole : left ++ ' ' :: right ++ second.dropWhile isSpace = second := by
      rw [← split, List.takeWhile_append_dropWhile]
    have stem : good (second.dropWhile isSpace) := (items.before _ _ blank).mp (by rwa [whole])
    refine move (first ++ ' ' :: left) (right ++ second.dropWhile isSpace)
      ((items.behind first _ blankLeft).mpr firstGood) ((items.before _ _ blankRight).mpr stem) (by simp) ?_
    nth_rewrite 2 [← whole]
    simp

end Joined

end Text

end ActiveBgp.Python

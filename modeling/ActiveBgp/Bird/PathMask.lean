import ActiveBgp.Bird.AsPath
import ActiveBgp.Data.Patterns

namespace ActiveBgp.Bird.Path

open ActiveBgp.Data.Patterns

/-! # Path masks

A mask is matched by an automaton whose states are the positions in the path.  The
marks are kept in an array that every item of the mask changes in place, from the
highest mark down to the lowest one.
-/

/-- An item of a mask; expressions are replaced by their values before. -/
inductive Mask where
  | asn (val : Asn 4)
  | asnRange (val val2 : Asn 4)
  | question
  | asterisk

section Matching

/-- The positions of a path. -/
def parsePath (path : Bytes) : Option (List (Item 4)) :=
  result id (overBlocks 4 (fun kind asns pos =>
    if kind = asPathSet then .ok (pos ++ [.set asns])
    else if kind = asPathSequence then .ok (pos ++ asns.map .asn)
    else .error .bug) path [])

def pmMatch (asn asn2 : Asn 4) : Item 4 → Bool
  | .asn val => asn ≤ val ∧ val ≤ asn2
  | .set asns => asns.any fun gas => asn ≤ gas ∧ gas ≤ asn2

abbrev Marks := Nat → Bool

def Item.isSet : Item 4 → Bool
  | .asn _ => false
  | .set _ => true

/-- The loop of `pm_mark`: sets are marked up to one that is marked already. -/
def markSets : List (Item 4) → Nat → Marks → Nat × Marks
  | .set _ :: rest, j, marks => if marks j then (j, marks) else markSets rest (j + 1) (Function.update marks j true)
  | _, j, marks => (j, marks)

/-- The bounds of the new marks are not there before the first mark. -/
def pmMark (pos : List (Item 4)) (i : Nat) (marks : Marks) (bounds : Option (Nat × Nat)) : Marks × Option (Nat × Nat) :=
  let set := pos[i]?.any Item.isSet
  let ended := markSets (pos.drop (i + 1)) (i + 1) (if set then Function.update marks i true else marks)
  (Function.update ended.2 ended.1 true, some (if set then i else i + 1, (bounds.map Prod.snd).getD ended.1))

/-- A marked position gives its mark to the next ones. -/
def sweep (pos : List (Item 4)) (matching : Item 4 → Bool) (i : Nat) (swept : Marks × Option (Nat × Nat)) :
    Marks × Option (Nat × Nat) :=
  if swept.1 i then
    let marks := Function.update swept.1 i false
    if pos[i]?.any matching then pmMark pos i marks swept.2 else (marks, swept.2)
  else swept

/-- `for (i = h; i >= l; i--)` -/
def advanceMarks (pos : List (Item 4)) (matching : Item 4 → Bool) (l h : Nat) (marks : Marks) :
    Marks × Option (Nat × Nat) :=
  (List.range' l (h + 1 - l)).foldr (sweep pos matching) (marks, none)

/-- The positions that an item matches, unless it is an asterisk. -/
def Mask.matching : Mask → Option (Item 4 → Bool)
  | .asn val => some (pmMatch val val)
  | .asnRange val val2 => some (pmMatch val val2)
  | .question => some fun _ => true
  | .asterisk => none

/-- `while (mask)` -/
def matchLoop (pos : List (Item 4)) : List Mask → Nat → Nat → Marks → Bool
  | [], _, _, marks => marks pos.length
  | mask :: rest, l, h, marks =>
      match mask.matching with
      | none => matchLoop pos rest l pos.length fun i =>
          if l ≤ i ∧ i ≤ pos.length then true else Function.update marks pos.length false i
      | some matching =>
          match advanceMarks pos matching l h (Function.update marks pos.length false) with
          | (marks, some (l, h)) => matchLoop pos rest l h marks
          | (_, none) => false

/-- The array has room for 2048 positions. -/
def asPathMatch (path : Bytes) (mask : List Mask) : Option Bool :=
  match parsePath path with
  | some pos => if pos.length ≤ 2048 then some (matchLoop pos mask 0 0 fun i => i == 0) else none
  | none => none

end Matching

section Meaning

/-- A set may stand for any sequence of its members. -/
def Item.piece : Item 4 → Piece (Asn 4)
  | .asn as => .once (· = as)
  | .set asns => .many (· ∈ asns)

def Mask.piece : Mask → Piece (Asn 4)
  | .asn val => .once (· = val)
  | .asnRange val val2 => .once fun as => val ≤ as ∧ as ≤ val2
  | .question => .once fun _ => True
  | .asterisk => .many fun _ => True

@[simp] theorem Item.isMany_piece (item : Item 4) : item.piece.isMany = item.isSet := by cases item <;> rfl

theorem Item.piece_next (item : Item 4) (i : Nat) : item.piece.next i = if item.isSet then i else i + 1 := by
  rw [Piece.next, isMany_piece]

theorem parsePath_encode (path : AsPath 4) : parsePath (encode path) = some (items path) := by
  let step (pos : List (Item 4)) (item : Item 4) : Except (Exit (List (Item 4))) (List (Item 4)) := .ok (pos ++ [item])
  have sequence (asns : List (Asn 4)) (pos : List (Item 4)) :
      asns.foldlM (fun pos as => step pos (.asn as)) pos = .ok (pos ++ asns.map .asn) := by
    induction asns generalizing pos with
    | nil => rw [List.map_nil, List.append_nil]; rfl
    | cons first rest ih =>
        rw [List.foldlM_cons, List.map_cons, List.append_cons]
        exact ih (pos ++ [.asn first])
  have byItems : ByItems (fun kind (asns : List (Asn 4)) pos =>
      if kind = asPathSet then .ok (pos ++ [.set asns])
      else if kind = asPathSequence then .ok (pos ++ asns.map .asn)
      else .error .bug) step := by
    refine ⟨fun asns pos _ => if_pos rfl, fun asns pos _ => ?_⟩
    rw [if_neg sequence_ne_set, if_pos rfl]
    exact (sequence asns pos).symm
  have all (list front : List (Item 4)) : list.foldl (fun pos item => pos ++ [item]) front = front ++ list := by
    induction list generalizing front with
    | nil => rw [List.append_nil]; rfl
    | cons item rest ih => rw [List.foldl_cons, ih, ← List.append_cons]
  rw [parsePath, byItems.overBlocks, foldlM_ok fun _ _ => rfl, all, List.nil_append]
  rfl

end Meaning

section Marking

variable {pos : List (Item 4)} {marks : Marks} {first last : Nat}

abbrev pieces (pos : List (Item 4)) : List (Piece (Asn 4)) := pos.map Item.piece

theorem exists_item (inside : first < pos.length) : ∃ item, pos[first]? = some item :=
  ⟨pos[first], List.getElem?_eq_getElem inside⟩

theorem pieces_of_item {item : Item 4} (here : pos[first]? = some item) : (pieces pos)[first]? = some item.piece := by
  rw [List.getElem?_map, here]
  rfl

/-- Where a set is marked, the position behind it is marked. -/
def Closed (pos : List (Item 4)) (first : Nat) (marks : Marks) : Prop :=
  ∀ index, first ≤ index → marks index = true → pos[index]?.any Item.isSet = true → marks (index + 1) = true

theorem closed_of_unmarked (unmarked : ∀ index, first ≤ index → marks index = false) : Closed pos first marks := by
  intro index after mark
  rw [unmarked index after] at mark
  cases mark

theorem skips_succ {index : Nat} (set : pos[first]?.any Item.isSet = true) :
    Skips (pieces pos) first index ↔ index = first ∨ Skips (pieces pos) (first + 1) index := by
  obtain ⟨item, here, isSet⟩ := (Option.any_eq_true _ _).mp set
  obtain ⟨inside, _⟩ := List.getElem?_eq_some_iff.mp here
  have many : ∃ piece ∈ (pieces pos)[first]?, piece.isMany = true :=
    ⟨item.piece, pieces_of_item here, by rw [item.isMany_piece, isSet]⟩
  constructor
  · intro skips
    rcases Nat.eq_or_lt_of_le skips.le with same | different
    · exact .inl same.symm
    · exact .inr (skips.tail different)
  · rintro (rfl | skips)
    · exact .refl (by rw [List.length_map]; omega)
    · exact skips.step many

theorem skips_iff_eq {index : Nat} (bound : first ≤ pos.length) (notSet : pos[first]?.any Item.isSet = false) :
    Skips (pieces pos) first index ↔ index = first := by
  constructor
  · intro skips
    by_contra different
    obtain ⟨piece, here, many⟩ := skips.many first (Nat.le_refl first) (Nat.lt_of_le_of_ne skips.le (Ne.symm different))
    obtain ⟨item, present, rfl⟩ := Option.mem_map.mp (List.getElem?_map .. ▸ here)
    rw [item.isMany_piece] at many
    rw [present, Option.any_some, many] at notSet
    cases notSet
  · rintro rfl
    exact .refl (by rw [List.length_map]; exact bound)

theorem Closed.skips (closed : Closed pos first marks) (mark : marks first = true) {index : Nat}
    (skips : Skips (pieces pos) first index) : marks index = true := by
  induction distance : index - first generalizing first with
  | zero =>
      have same : index = first := by have := skips.le; omega
      exact same ▸ mark
  | succ more ih =>
      have different : first < index := by omega
      obtain ⟨piece, here, many⟩ := skips.many first (Nat.le_refl first) different
      obtain ⟨item, present, rfl⟩ := Option.mem_map.mp (List.getElem?_map .. ▸ here)
      have set : pos[first]?.any Item.isSet = true := by
        rw [present, Option.any_some, ← item.isMany_piece]
        exact many
      have later : Closed pos (first + 1) marks := fun index after => closed index (Nat.le_of_succ_le after)
      exact ih later (closed first (Nat.le_refl first) mark set) (skips.tail different) (by omega)

/-- The sets behind a position are marked, and the position behind them. -/
structure Extends (pos : List (Item 4)) (first : Nat) (marks : Marks) (ended : Nat × Marks) : Prop where
  skips : Skips (pieces pos) first ended.1
  marked : ∀ index, Function.update ended.2 ended.1 true index = true ↔
    marks index = true ∨ Skips (pieces pos) first index
  furthest : (∀ index, first ≤ index → marks index = false) →
    ∀ index, Skips (pieces pos) first index → index ≤ ended.1

theorem extends_of_notSet (bound : first ≤ pos.length) (notSet : pos[first]?.any Item.isSet = false) :
    Extends pos first marks (first, marks) := by
  refine ⟨(skips_iff_eq bound notSet).mpr rfl, fun index => ?_, fun _ index skips => ?_⟩
  · rw [skips_iff_eq bound notSet, Function.update_apply]
    by_cases same : index = first <;> simp [same]
  · exact ((skips_iff_eq bound notSet).mp skips).le

theorem markSets_extends (bound : first ≤ pos.length) (closed : Closed pos first marks) :
    Extends pos first marks (markSets (pos.drop first) first marks) := by
  induction remaining : pos.length - first generalizing first marks with
  | zero =>
      rw [List.drop_eq_nil_of_le (by omega)]
      refine extends_of_notSet bound ?_
      rw [List.getElem?_eq_none (by omega)]
      rfl
  | succ more ih =>
      obtain ⟨item, here⟩ := exists_item (show first < pos.length by omega)
      have split : pos.drop first = item :: pos.drop (first + 1) := by
        obtain ⟨inside, rfl⟩ := List.getElem?_eq_some_iff.mp here
        exact List.drop_eq_getElem_cons inside
      rw [split]
      cases item with
      | asn as => exact extends_of_notSet bound (by rw [here]; rfl)
      | set asns =>
          have set : pos[first]?.any Item.isSet = true := by rw [here]; rfl
          rw [markSets]
          cases mark : marks first with
          | true =>
              rw [if_pos rfl]
              refine ⟨.refl (by rw [List.length_map]; exact bound), fun index => ?_, fun unmarked => ?_⟩
              · rw [Function.update_apply]
                by_cases same : index = first
                · simp [same, mark]
                · rw [if_neg same]
                  exact ⟨.inl, fun either => either.elim id (closed.skips mark)⟩
              · rw [unmarked first (Nat.le_refl first)] at mark
                cases mark
          | false =>
              have later : Closed pos (first + 1) (Function.update marks first true) := by
                intro index after mark set
                rw [Function.update_of_ne (by omega)] at mark ⊢
                exact closed index (by omega) mark set
              have extended := ih (by omega) later (by omega)
              rw [if_neg Bool.false_ne_true]
              refine ⟨(skips_succ set).mpr (.inr extended.skips), fun index => ?_, fun unmarked index skips => ?_⟩
              · rw [extended.marked index, skips_succ set, Function.update_apply]
                by_cases same : index = first <;> simp [same]
              · rcases (skips_succ set).mp skips with rfl | further
                · exact Nat.le_of_succ_le extended.skips.le
                · refine extended.furthest (fun index after => ?_) index further
                  rw [Function.update_of_ne (by omega)]
                  exact unmarked index (by omega)

end Marking

section Sweep

variable {pos : List (Item 4)} {matching : Item 4 → Bool} {old marks : Marks} {i j : Nat} {item : Item 4}

/-- What is marked by the marks from `i` on. -/
def Reached (pos : List (Item 4)) (matching : Item 4 → Bool) (old : Marks) (i j : Nat) : Prop :=
  ∃ k, i ≤ k ∧ old k = true ∧ ∃ item ∈ pos[k]?, matching item = true ∧ Skips (pieces pos) (item.piece.next k) j

theorem le_next (piece : Piece (Asn 4)) (index : Nat) : index ≤ piece.next index := by
  rw [Piece.next]
  split <;> omega

theorem Reached.le (reached : Reached pos matching old i j) : i ≤ j := by
  obtain ⟨k, after, _, item, _, _, skips⟩ := reached
  exact after.trans ((le_next item.piece k).trans skips.le)

theorem reached_succ : Reached pos matching old i j ↔ Reached pos matching old (i + 1) j ∨
    old i = true ∧ ∃ item ∈ pos[i]?, matching item = true ∧ Skips (pieces pos) (item.piece.next i) j := by
  constructor
  · rintro ⟨k, after, mark, matched⟩
    rcases Nat.eq_or_lt_of_le after with rfl | later
    · exact .inr ⟨mark, matched⟩
    · exact .inl ⟨k, later, mark, matched⟩
  · rintro (⟨k, after, rest⟩ | ⟨mark, matched⟩)
    · exact ⟨k, Nat.le_of_succ_le after, rest⟩
    · exact ⟨i, Nat.le_refl i, mark, matched⟩

/-- The state of the array when all positions from `i` on are done. -/
structure Swept (pos : List (Item 4)) (matching : Item 4 → Bool) (old : Marks) (i : Nat)
    (swept : Marks × Option (Nat × Nat)) : Prop where
  below : ∀ j, j < i → swept.1 j = old j
  above : ∀ j, i ≤ j → (swept.1 j = true ↔ Reached pos matching old i j)
  empty : swept.2 = none → ∀ j, i ≤ j → swept.1 j = false
  bounds : ∀ bounds ∈ swept.2, i ≤ bounds.1 ∧ swept.1 bounds.1 = true ∧ swept.1 bounds.2 = true ∧
    ∀ j, i ≤ j → swept.1 j = true → bounds.1 ≤ j ∧ j ≤ bounds.2

theorem Swept.closed {swept : Marks × Option (Nat × Nat)} (done : Swept pos matching old i swept) :
    Closed pos i swept.1 := by
  intro index after mark set
  obtain ⟨item, here, isSet⟩ := (Option.any_eq_true _ _).mp set
  obtain ⟨k, later, before, other, present, matched, skips⟩ := (done.above index after).mp mark
  refine (done.above (index + 1) (Nat.le_succ_of_le after)).mpr ⟨k, later, before, other, present, matched, ?_⟩
  exact skips.concat ⟨item.piece, pieces_of_item here, by rw [item.isMany_piece, isSet]⟩

/-- The marks that a match at `i` adds. -/
theorem pmMark_marks (here : pos[i]? = some item) (closed : Closed pos (i + 1) marks) (bounds : Option (Nat × Nat)) (j : Nat) :
    (pmMark pos i marks bounds).1 j = true ↔ marks j = true ∨ Skips (pieces pos) (item.piece.next i) j := by
  obtain ⟨inside, _⟩ := List.getElem?_eq_some_iff.mp here
  have own : pos[i]?.any Item.isSet = item.isSet := by rw [here, Option.any_some]
  unfold pmMark
  simp only [own]
  cases isSet : item.isSet with
  | true =>
      have kept : Closed pos (i + 1) (Function.update marks i true) := by
        intro index after mark set
        rw [Function.update_of_ne (by omega)] at mark ⊢
        exact closed index after mark set
      rw [if_pos rfl, (markSets_extends inside kept).marked j, item.piece_next, if_pos isSet,
        skips_succ (own.trans isSet), Function.update_apply]
      by_cases same : j = i <;> simp [same]
  | false =>
      rw [if_neg Bool.false_ne_true, (markSets_extends inside closed).marked j, item.piece_next, if_neg (by simp [isSet])]

theorem pmMark_first (here : pos[i]? = some item) (unmarked : ∀ j, i + 1 ≤ j → marks j = false) :
    ∃ high, (pmMark pos i marks none).2 = some (item.piece.next i, high) ∧
      Skips (pieces pos) (item.piece.next i) high ∧
      ∀ j, Skips (pieces pos) (item.piece.next i) j → j ≤ high := by
  obtain ⟨inside, _⟩ := List.getElem?_eq_some_iff.mp here
  have own : pos[i]?.any Item.isSet = item.isSet := by rw [here, Option.any_some]
  refine ⟨(markSets (pos.drop (i + 1)) (i + 1) (if item.isSet then Function.update marks i true else marks)).1, ?_, ?_⟩
  · rw [pmMark, own, item.piece_next]
    rfl
  · rw [item.piece_next]
    cases isSet : item.isSet with
    | true =>
        have none (j : Nat) (after : i + 1 ≤ j) : Function.update marks i true j = false := by
          rw [Function.update_of_ne (by omega)]
          exact unmarked j after
        have extended := markSets_extends inside (closed_of_unmarked none)
        refine ⟨(skips_succ (own.trans isSet)).mpr (.inr extended.skips), fun j skips => ?_⟩
        rcases (skips_succ (own.trans isSet)).mp skips with rfl | further
        · exact Nat.le_of_succ_le extended.skips.le
        · exact extended.furthest none j further
    | false =>
        have extended := markSets_extends inside (closed_of_unmarked unmarked)
        exact ⟨extended.skips, extended.furthest unmarked⟩

theorem pmMark_later (here : pos[i]? = some item) (bounds : Nat × Nat) :
    (pmMark pos i marks (some bounds)).2 = some (item.piece.next i, bounds.2) := by
  have own : pos[i]?.any Item.isSet = item.isSet := by rw [here, Option.any_some]
  rw [pmMark, own, item.piece_next]
  rfl

variable {swept : Marks × Option (Nat × Nat)}

theorem Swept.idle (done : Swept pos matching old (i + 1) swept)
    (idle : ¬ (old i = true ∧ pos[i]?.any matching = true)) (kept : marks i = false)
    (same : ∀ j, j ≠ i → marks j = swept.1 j) : Swept pos matching old i (marks, swept.2) := by
  have reached (j : Nat) : Reached pos matching old i j ↔ Reached pos matching old (i + 1) j := by
    rw [reached_succ]
    refine or_iff_left ?_
    rintro ⟨mark, item, here, matched, _⟩
    exact idle ⟨mark, (Option.any_eq_true _ _).mpr ⟨item, here, matched⟩⟩
  have here (j : Nat) (after : i ≤ j) (mark : marks j = true) : i + 1 ≤ j ∧ swept.1 j = true := by
    have different : j ≠ i := by
      rintro rfl
      rw [kept] at mark
      cases mark
    exact ⟨by omega, same j different ▸ mark⟩
  refine ⟨fun j before => ?_, fun j after => ?_, fun none j after => ?_, fun bounds given => ?_⟩
  · exact (same j (by omega)).trans (done.below j (by omega))
  · rw [reached]
    constructor
    · intro mark
      obtain ⟨later, before⟩ := here j after mark
      exact (done.above j later).mp before
    · intro reach
      exact (same j (by have := reach.le; omega)).trans ((done.above j reach.le).mpr reach)
  · by_contra mark
    obtain ⟨later, before⟩ := here j after (by simpa using mark)
    rw [done.empty none j later] at before
    cases before
  · obtain ⟨low, marked, high, within⟩ := done.bounds bounds given
    have above : i + 1 ≤ bounds.2 := low.trans (within bounds.1 low marked).2
    refine ⟨by omega, (same _ (by omega)).trans marked, (same _ (by omega)).trans high, fun j after mark => ?_⟩
    obtain ⟨later, before⟩ := here j after mark
    exact within j later before

theorem Swept.sweep (done : Swept pos matching old (i + 1) swept) :
    Swept pos matching old i (Path.sweep pos matching i swept) := by
  have own := done.below i (Nat.lt_succ_self i)
  unfold Path.sweep
  cases mark : swept.1 i with
  | false =>
      rw [if_neg Bool.false_ne_true]
      exact done.idle (fun both => by rw [← own, mark] at both; cases both.1) mark fun _ _ => rfl
  | true =>
      rw [if_pos rfl]
      have cleared (j : Nat) (different : j ≠ i) : Function.update swept.1 i false j = swept.1 j :=
        Function.update_of_ne different _ _
      have zero : Function.update swept.1 i false i = false := Function.update_self ..
      cases matched : pos[i]?.any matching with
      | false => exact done.idle (fun both => by rw [matched] at both; cases both.2) zero cleared
      | true =>
          obtain ⟨item, here, accepted⟩ := (Option.any_eq_true _ _).mp matched
          have closed : Closed pos (i + 1) (Function.update swept.1 i false) := by
            intro index after mark set
            rw [cleared _ (by omega)] at mark ⊢
            exact done.closed index after mark set
          have marked := pmMark_marks here closed swept.2
          have low := le_next item.piece i
          have high : item.piece.next i ≤ i + 1 := by
            rw [Piece.next]
            split <;> omega
          have self : Skips (pieces pos) (item.piece.next i) (item.piece.next i) := .refl (next_le (pieces_of_item here))
          rw [if_pos rfl]
          refine ⟨fun j before => ?_, fun j after => ?_, fun none => ?_, fun bounds given => ?_⟩
          · have away : ¬ Skips (pieces pos) (item.piece.next i) j := fun skips => by have := skips.le; omega
            have same : (pmMark pos i (Function.update swept.1 i false) swept.2).1 j = true ↔ swept.1 j = true := by
              rw [marked j, cleared j (by omega)]
              exact or_iff_left away
            exact (Bool.eq_iff_iff.mpr same).trans (done.below j (by omega))
          · rw [marked j, reached_succ]
            refine or_congr ?_ ?_
            · by_cases different : j = i
              · subst different
                rw [zero]
                exact ⟨fun mark => absurd mark Bool.false_ne_true, fun reach => absurd reach.le (by omega)⟩
              · rw [cleared j different]
                exact done.above j (by omega)
            · constructor
              · exact fun skips => ⟨own ▸ mark, item, here, accepted, skips⟩
              · rintro ⟨_, other, present, _, skips⟩
                rw [here] at present
                cases present
                exact skips
          · rw [pmMark] at none
            cases none
          · cases before : swept.2 with
            | none =>
                have unmarked (j : Nat) (after : i + 1 ≤ j) : Function.update swept.1 i false j = false :=
                  (cleared j (by omega)).trans (done.empty before j after)
                obtain ⟨top, ends, reaches, furthest⟩ := pmMark_first here unmarked
                rw [before] at given marked
                rw [ends] at given
                cases given
                refine ⟨low, (marked _).mpr (.inr self), (marked _).mpr (.inr reaches), fun j after mark => ?_⟩
                rcases (marked j).mp mark with kept | skips
                · by_cases different : j = i
                  · rw [different, zero] at kept
                    cases kept
                  · rw [unmarked j (by omega)] at kept
                    cases kept
                · exact ⟨skips.le, furthest j skips⟩
            | some earlier =>
                obtain ⟨least, lowest, highest, within⟩ := done.bounds earlier before
                have top := (within earlier.1 least lowest).2
                rw [before] at given marked
                rw [pmMark_later here] at given
                cases given
                refine ⟨low, (marked _).mpr (.inr self), (marked _).mpr (.inl ?_), fun j after mark => ?_⟩
                · exact (cleared _ (by omega)).trans highest
                · rcases (marked j).mp mark with kept | skips
                  · by_cases different : j = i
                    · rw [different, zero] at kept
                      cases kept
                    · rw [cleared j different] at kept
                      have bound := within j (by omega) kept
                      exact ⟨by omega, bound.2⟩
                  · refine ⟨skips.le, ?_⟩
                    by_contra beyond
                    obtain ⟨piece, present, many⟩ := skips.many earlier.2 (by omega) (by omega)
                    obtain ⟨next, found, rfl⟩ := Option.mem_map.mp (List.getElem?_map .. ▸ present)
                    have set : pos[earlier.2]?.any Item.isSet = true := by
                      rw [found, Option.any_some, ← next.isMany_piece]
                      exact many
                    have later := done.closed earlier.2 (by omega) highest set
                    have bound := within _ (by omega) later
                    omega

theorem advanceMarks_swept {l h : Nat} (le : l ≤ h + 1) (most : ∀ j, old j = true → j ≤ h) :
    Swept pos matching old l (advanceMarks pos matching l h old) := by
  have start : Swept pos matching old (h + 1) (old, none) := by
    have unmarked (j : Nat) (after : h + 1 ≤ j) : old j = false := by
      by_contra mark
      have := most j (by simpa using mark)
      omega
    refine ⟨fun _ _ => rfl, fun j after => ?_, fun _ => unmarked, nofun⟩
    refine ⟨fun mark => absurd mark (by simp [unmarked j after]), ?_⟩
    rintro ⟨k, later, mark, _⟩
    rw [unmarked k later] at mark
    cases mark
  rw [advanceMarks]
  induction count : h + 1 - l generalizing l with
  | zero =>
      have ended : l = h + 1 := by omega
      exact ended ▸ start
  | succ more ih => exact (ih (by omega) (by omega)).sweep

end Sweep

section Automaton

variable {pos : List (Item 4)} {marks : Marks} {l h : Nat} {mask : List Mask}

/-- The bounds of the interval in which the marks are. -/
structure Marked (pos : List (Item 4)) (l h : Nat) (marks : Marks) : Prop where
  lowest : marks l = true
  within : ∀ j, marks j = true → l ≤ j ∧ j ≤ h
  bound : h ≤ pos.length

theorem Marked.le_length (marked : Marked pos l h marks) (j : Nat) (mark : marks j = true) : j ≤ (pieces pos).length := by
  rw [List.length_map]
  exact (marked.within j mark).2.trans marked.bound

theorem advanced_iff_reached {accepts : Asn 4 → Prop} {matching : Item 4 → Bool}
    (agree : ∀ item ∈ pos, matching item = true ↔ ∃ letter, item.piece.accepts letter ∧ accepts letter)
    (least : ∀ j, marks j = true → l ≤ j) (j : Nat) :
    Advanced (pieces pos) accepts (fun index => marks index = true) j ↔
      Reached pos matching (Function.update marks pos.length false) l j := by
  constructor
  · rintro ⟨index, mark, piece, present, takes, skips⟩
    obtain ⟨item, here, rfl⟩ := Option.mem_map.mp (List.getElem?_map .. ▸ present)
    obtain ⟨inside, _⟩ := List.getElem?_eq_some_iff.mp here
    refine ⟨index, least index mark, ?_, item, here, (agree item (List.mem_of_getElem? here)).mpr takes, skips⟩
    rw [Function.update_of_ne (by omega)]
    exact mark
  · rintro ⟨index, _, mark, item, here, matched, skips⟩
    obtain ⟨inside, _⟩ := List.getElem?_eq_some_iff.mp here
    rw [Function.update_of_ne (by omega)] at mark
    exact ⟨index, mark, item.piece, pieces_of_item here, (agree item (List.mem_of_getElem? here)).mp matched, skips⟩

theorem step_iff {accepts : Asn 4 → Prop} {matching : Item 4 → Bool}
    (agree : ∀ item ∈ pos, matching item = true ↔ ∃ letter, item.piece.accepts letter ∧ accepts letter)
    (marked : Marked pos l h marks) {rest : Nat → Nat → Marks → Bool} {mask : List (Piece (Asn 4))}
    (later : ∀ {l h marks}, Marked pos l h marks →
      (rest l h marks = true ↔ Meets (pieces pos) (fun index => marks index = true) mask)) :
    (match advanceMarks pos matching l h (Function.update marks pos.length false) with
      | (marks, some (l, h)) => rest l h marks
      | (_, none) => false) = true ↔
      Meets (pieces pos) (fun index => marks index = true) (.once accepts :: mask) := by
  have within (j : Nat) (mark : Function.update marks pos.length false j = true) : l ≤ j ∧ j ≤ h := by
    rw [Function.update_apply] at mark
    split at mark
    · cases mark
    · exact marked.within j mark
  have le := (marked.within l marked.lowest).2
  have swept := @advanceMarks_swept pos matching _ _ _ (Nat.le_succ_of_le le) fun j mark => (within j mark).2
  have least (j : Nat) (mark : marks j = true) : l ≤ j := (marked.within j mark).1
  have moved (j : Nat) (after : l ≤ j) :
      (advanceMarks pos matching l h (Function.update marks pos.length false)).1 j = true ↔
        Advanced (pieces pos) accepts (fun index => marks index = true) j :=
    (swept.above j after).trans (advanced_iff_reached agree least j).symm
  rw [meets_once]
  generalize advanceMarks pos matching l h (Function.update marks pos.length false) = next at swept moved
  obtain ⟨marks', bounds⟩ := next
  cases bounds with
  | none =>
      refine ⟨nofun, ?_⟩
      rintro ⟨index, reached, _⟩
      have after := ((advanced_iff_reached agree least index).mp reached).le
      rw [← moved index after, swept.empty rfl index after] at reached
      cases reached
  | some bounds =>
      obtain ⟨low, high⟩ := bounds
      obtain ⟨after, lowest, highest, between⟩ := swept.bounds (low, high) rfl
      have below (j : Nat) (mark : marks' j = true) : l ≤ j := by
        by_contra before
        have kept : marks' j = Function.update marks pos.length false j := swept.below j (by omega)
        rw [mark] at kept
        exact before (within j kept.symm).1
      have same : (fun index => marks' index = true) =
          Advanced (pieces pos) accepts (fun index => marks index = true) := by
        funext j
        refine propext ⟨fun mark => (moved j (below j mark)).mp mark, fun reached => ?_⟩
        exact (moved j ((advanced_iff_reached agree least j).mp reached).le).mpr reached
      have inside : high ≤ pos.length := by
        obtain ⟨_, _, _, _, _, skips⟩ := (moved high (after.trans (between low after lowest).2)).mp highest
        have bound := skips.bound
        rwa [List.length_map] at bound
      rw [← same]
      exact later ⟨lowest, fun j mark => between j (below j mark) mark, inside⟩

/-- The automaton accepts when a word of the path is one of the mask. -/
theorem matchLoop_iff (full : ∀ item ∈ pos, ∃ letter, item.piece.accepts letter) (marked : Marked pos l h marks) :
    matchLoop pos mask l h marks = true ↔
      Meets (pieces pos) (fun index => marks index = true) (mask.map Mask.piece) := by
  induction mask generalizing l h marks with
  | nil =>
      rw [matchLoop, List.map_nil, meets_nil marked.le_length, List.length_map]
  | cons item rest ih =>
      rw [List.map_cons, matchLoop]
      have ranged (val val2 : Asn 4) (item : Item 4) :
          pmMatch val val2 item = true ↔ ∃ letter, item.piece.accepts letter ∧ (val ≤ letter ∧ letter ≤ val2) := by
        cases item <;> simp [pmMatch, Item.piece, Piece.accepts]
      cases item with
      | asterisk =>
          have inhabited : ∀ piece ∈ pieces pos, ∃ letter, piece.accepts letter := List.forall_mem_map.mpr full
          have least (j : Nat) (mark : marks j = true) : l ≤ j := (marked.within j mark).1
          have spread (j : Nat) : (if l ≤ j ∧ j ≤ pos.length then true
              else Function.update marks pos.length false j) = true ↔ l ≤ j ∧ j ≤ (pieces pos).length := by
            rw [List.length_map]
            split
            · next inside => exact ⟨fun _ => inside, fun _ => rfl⟩
            · next outside =>
                refine ⟨fun mark => ?_, fun inside => absurd inside outside⟩
                rw [Function.update_apply] at mark
                split at mark
                · cases mark
                · exact absurd ⟨least j mark, (marked.within j mark).2.trans marked.bound⟩ outside
          have le : l ≤ pos.length := (marked.within l marked.lowest).2.trans marked.bound
          refine (ih ?_).trans ?_
          · exact ⟨(spread l).mpr ⟨Nat.le_refl l, by rwa [List.length_map]⟩,
              fun j mark => by simpa using (spread j).mp mark, Nat.le_refl _⟩
          · rw [Mask.piece, meets_many inhabited marked.lowest least marked.le_length]
            simp only [spread]
      | asn val =>
          refine step_iff (fun item _ => ?_) marked ih
          rw [ranged]
          simp only [le_antisymm_iff, and_comm]
      | asnRange val val2 => exact step_iff (fun item _ => ranged val val2 item) marked ih
      | question => exact step_iff (fun item member => by simpa using full item member) marked ih

theorem items_full (path : AsPath 4) : ∀ item ∈ items path, ∃ letter, item.piece.accepts letter := by
  intro item member
  obtain ⟨segment, _, inside⟩ := List.mem_flatMap.mp member
  rcases segment.cases_kind with ⟨_, alone⟩ | ⟨_, each⟩
  · rw [alone, List.mem_singleton] at inside
    subst inside
    exact List.exists_mem_of_ne_nil _ segment.nonempty
  · rw [each] at inside
    obtain ⟨as, _, rfl⟩ := List.mem_map.mp inside
    exact ⟨as, rfl⟩

/-- A set stands for any sequence of its members, but for at least one of them at the start of the path. -/
theorem asPathMatch_iff (path : AsPath 4) (room : (items path).length ≤ 2048) (mask : List Mask) :
    ∃ matched, asPathMatch (encode path) mask = some matched ∧
      (matched = true ↔ ∃ word ∈ entered (pieces (items path)), word ∈ language (mask.map Mask.piece)) := by
  have start : Marked (items path) 0 0 fun i => i == 0 :=
    ⟨rfl, fun j mark => ⟨Nat.zero_le j, (eq_of_beq mark).le⟩, Nat.zero_le _⟩
  refine ⟨matchLoop (items path) mask 0 0 fun i => i == 0, ?_, ?_⟩
  · rw [asPathMatch, parsePath_encode]
    exact if_pos room
  · rw [matchLoop_iff (items_full path) start]
    constructor
    · rintro ⟨index, first, word, entry, member⟩
      obtain rfl : index = 0 := eq_of_beq first
      exact ⟨word, entry, member⟩
    · rintro ⟨word, entry, member⟩
      exact ⟨0, rfl, word, entry, member⟩

/-- The path `5 {1 2}`. -/
def examplePath : AsPath 4 := [single 5, ⟨true, [1, 2], List.cons_ne_nil _ _, by decide⟩]

theorem asPathMatch_iff_example : ∃ matched, asPathMatch (encode examplePath) [.asn 5, .question] = some matched ∧
    (matched = true ↔ ∃ word ∈ entered (pieces (items examplePath)), word ∈ language [.once (· = 5), .once fun _ => True]) :=
  asPathMatch_iff examplePath (by decide) [.asn 5, .question]

end Automaton

end ActiveBgp.Bird.Path

import Mathlib
import ActiveBgp.Data.BigEndian

namespace ActiveBgp.Bird.Path

open ActiveBgp.Data.BigEndian

/-! # AS paths

BIRD keeps a path in the bytes in which BGP sends it: blocks of a type, a count and
so many AS numbers.  A sequence stands for its members one after the other, a set
for any one of its members.  A path is best understood as the list of these items.
-/

abbrev Bytes := List UInt8

/-- An AS number of `bs` bytes. -/
abbrev Asn (bs : Nat) := Fin (256 ^ bs)

instance Asn.neZero_two : NeZero (256 ^ 2) := ⟨pow_ne_zero 2 (by decide)⟩

instance Asn.neZero_four : NeZero (256 ^ 4) := ⟨pow_ne_zero 4 (by decide)⟩

def asPathSet : UInt8 := 1

def asPathSequence : UInt8 := 2

section Loops

variable {bs : Nat} {ρ σ : Type}

/-- How a function is left before the end of the path. -/
inductive Exit (ρ : Type) where
  | returned (result : ρ)
  | bug
  | beyond

/-- The loop `while (p < q)` over the blocks of a path. -/
def overBlocks (bs : Nat) (body : UInt8 → List (Asn bs) → σ → Except (Exit ρ) σ) (path : Bytes) (state : σ) :
    Except (Exit ρ) σ :=
  match path with
  | [] => .ok state
  | [_] => .error .beyond
  | kind :: count :: rest =>
      if rest.length < bs * count.toNat then .error .beyond
      else
        match body kind (numbers bs count.toNat rest) state with
        | .ok next => overBlocks bs body (rest.drop (bs * count.toNat)) next
        | .error exit => .error exit
termination_by path.length

/-- What a function returns, unless it stops the program or reads beyond its path. -/
def result (finish : σ → ρ) : Except (Exit ρ) σ → Option ρ
  | .ok state => some (finish state)
  | .error (.returned value) => some value
  | .error _ => none

end Loops

/-- A block: the type, the count and the numbers. -/
def blockBytes {bs : Nat} (kind : UInt8) (asns : List (Asn bs)) : Bytes := kind :: UInt8.ofNat asns.length :: table bs asns

section Functions

def asPathPrepend (olda : Bytes) (as : Asn 4) : Bytes :=
  let segment := asPathSequence :: 1 :: (digits 4 as.val ++ olda)
  match olda with
  | kind :: count :: rest =>
      if kind = asPathSequence ∧ count < 255 then asPathSequence :: (count + 1) :: (digits 4 as.val ++ rest) else segment
  | _ => segment

def asPathGetlenInt (path : Bytes) (bs : Nat) : Option Nat :=
  result id (overBlocks bs (fun kind asns res =>
    if kind = asPathSet then .ok (res + 1)
    else if kind = asPathSequence then .ok (res + asns.length)
    else .error .bug) path 0)

def asPathGetlen (path : Bytes) : Option Nat := asPathGetlenInt path 4

/-- The origin; there is none behind a set. -/
def asPathGetLast (path : Bytes) : Option (Option (Asn 4)) :=
  result id (overBlocks 4 (fun kind asns found =>
    if kind = asPathSet then .ok (if asns.length ≠ 0 then none else found)
    else if kind = asPathSequence then .ok (if asns.length ≠ 0 then asns.getLast? else found)
    else .error .bug) path none)

def asPathGetLastNonaggregated (path : Bytes) : Option (Asn 4) :=
  result id (overBlocks 4 (fun kind asns res =>
    if kind = asPathSet then .error (.returned res)
    else if kind = asPathSequence then .ok (if asns.length ≠ 0 then asns.getLast?.getD res else res)
    else .error .bug) path 0)

def asPathGetFirst : Bytes → Option (Asn 4)
  | kind :: count :: rest => if kind ≠ asPathSequence ∨ count = 0 then none else some (number 4 rest)
  | _ => none

/-- The inner loop of `as_path_contains`. -/
def countAs (as : Asn 4) (min : Nat) : List (Asn 4) → Nat → Except (Exit Bool) Nat
  | [], num => .ok num
  | asn :: rest, num =>
      if asn = as then
        if num + 1 = min then .error (.returned true) else countAs as min rest (num + 1)
      else countAs as min rest num

def asPathContains (path : Bytes) (as : Asn 4) (min : Nat) : Option Bool :=
  result (fun _ => false) (overBlocks 4 (fun _ asns num => countAs as min asns num) path 0)

/-- `matches` tells whether a number is in the set or is the key. -/
def asPathFilter (path : Bytes) (matching : Asn 4 → Bool) (pos : Bool) : Option Bytes :=
  result (fun buf => if buf.length = path.length then path else buf) (overBlocks 4 (fun kind asns d =>
    let kept := asns.filter fun as => matching as == pos
    .ok (if kept.length > 0 then d ++ blockBytes kind kept else d)) path [])

end Functions

section Paths

variable {bs : Nat}

/-- A segment of a valid path. -/
structure Segment (bs : Nat) where
  isSet : Bool
  asns : List (Asn bs)
  nonempty : asns ≠ []
  short : asns.length < 256

/-- A valid path. -/
abbrev AsPath (bs : Nat) := List (Segment bs)

/-- A number of a sequence, or a set. -/
inductive Item (bs : Nat) where
  | asn (as : Asn bs)
  | set (asns : List (Asn bs))

namespace Segment

def kind (segment : Segment bs) : UInt8 := if segment.isSet then asPathSet else asPathSequence

def bytes (segment : Segment bs) : Bytes := blockBytes segment.kind segment.asns

def items (segment : Segment bs) : List (Item bs) := if segment.isSet then [.set segment.asns] else segment.asns.map .asn

end Segment

def encode (path : AsPath bs) : Bytes := path.flatMap Segment.bytes

def items (path : AsPath bs) : List (Item bs) := path.flatMap Segment.items

@[simp] theorem items_nil : items ([] : AsPath bs) = [] := rfl

@[simp] theorem items_cons (segment : Segment bs) (rest : AsPath bs) :
    items (segment :: rest) = segment.items ++ items rest := rfl

@[simp] theorem items_append (front rest : AsPath bs) : items (front ++ rest) = items front ++ items rest :=
  List.flatMap_append

@[simp] theorem encode_nil : encode ([] : AsPath bs) = [] := rfl

theorem encode_cons (segment : Segment bs) (rest : AsPath bs) :
    encode (segment :: rest) = segment.bytes ++ encode rest := rfl

@[simp] theorem encode_append (front rest : AsPath bs) : encode (front ++ rest) = encode front ++ encode rest :=
  List.flatMap_append

end Paths

section Reading

variable {bs : Nat} {ρ σ : Type} {body : UInt8 → List (Asn bs) → σ → Except (Exit ρ) σ}

theorem Segment.toNat_count (segment : Segment bs) : (UInt8.ofNat segment.asns.length).toNat = segment.asns.length :=
  UInt8.toNat_ofNat_of_lt' segment.short

theorem overBlocks_block (kind : UInt8) {asns : List (Asn bs)} (short : asns.length < 256) (rest : Bytes) (state : σ) :
    overBlocks bs body (blockBytes kind asns ++ rest) state =
      match body kind asns state with
      | .ok next => overBlocks bs body rest next
      | .error exit => .error exit := by
  have size : (table bs asns).length = bs * asns.length := length_table asns
  have enough : ¬ (table bs asns ++ rest).length < bs * asns.length := by
    rw [List.length_append, size]
    omega
  have dropped : (table bs asns ++ rest).drop (bs * asns.length) = rest := List.drop_left' size
  rw [blockBytes, List.cons_append, List.cons_append, overBlocks, UInt8.toNat_ofNat_of_lt' short, if_neg enough,
    numbers_table, dropped]

theorem overBlocks_encode (path : AsPath bs) (state : σ) :
    overBlocks bs body (encode path) state =
      path.foldlM (fun state segment => body segment.kind segment.asns state) state := by
  induction path generalizing state with
  | nil => rw [encode_nil, overBlocks, List.foldlM_nil]; rfl
  | cons segment rest ih =>
      rw [encode_cons, Segment.bytes, overBlocks_block _ segment.short, List.foldlM_cons]
      cases body segment.kind segment.asns state with
      | ok next => exact ih next
      | error exit => rfl

end Reading

section Kinds

variable {bs : Nat} {segment : Segment bs}

theorem Segment.cases_kind (segment : Segment bs) :
    segment.kind = asPathSet ∧ segment.items = [.set segment.asns] ∨
      segment.kind = asPathSequence ∧ segment.items = segment.asns.map .asn := by
  cases isSet : segment.isSet <;> simp [Segment.kind, Segment.items, isSet]

theorem sequence_ne_set : asPathSequence ≠ asPathSet := by decide

theorem Segment.length_pos (segment : Segment bs) : segment.asns.length ≠ 0 := by
  simpa using segment.nonempty

end Kinds

section Items

variable {bs : Nat} {ρ σ : Type} {body : UInt8 → List (Asn bs) → σ → Except (Exit ρ) σ}
  {step : σ → Item bs → Except (Exit ρ) σ}

/-- A loop over the blocks goes through the items. -/
structure ByItems (body : UInt8 → List (Asn bs) → σ → Except (Exit ρ) σ) (step : σ → Item bs → Except (Exit ρ) σ) :
    Prop where
  set : ∀ asns state, asns ≠ [] → body asPathSet asns state = step state (.set asns)
  sequence : ∀ asns state, asns ≠ [] → body asPathSequence asns state = asns.foldlM (fun state as => step state (.asn as)) state

theorem ByItems.segment (byItems : ByItems body step) (segment : Segment bs) (state : σ) :
    body segment.kind segment.asns state = segment.items.foldlM step state := by
  rcases segment.cases_kind with ⟨set, alone⟩ | ⟨sequence, each⟩
  · rw [set, alone, byItems.set _ _ segment.nonempty, List.foldlM_cons]
    exact (bind_pure _).symm
  · rw [sequence, each, byItems.sequence _ _ segment.nonempty, List.foldlM_map]

theorem ByItems.overBlocks (byItems : ByItems body step) (path : AsPath bs) (state : σ) :
    overBlocks bs body (encode path) state = (items path).foldlM step state := by
  rw [overBlocks_encode]
  induction path generalizing state with
  | nil => rfl
  | cons segment rest ih =>
      rw [List.foldlM_cons, items_cons, List.foldlM_append, byItems.segment]
      exact congrArg _ (funext ih)

theorem foldlM_ok {next : σ → Item bs → σ} (steps : ∀ state item, step state item = .ok (next state item))
    (path : List (Item bs)) (state : σ) : path.foldlM step state = .ok (path.foldl next state) := by
  induction path generalizing state with
  | nil => rfl
  | cons item rest ih =>
      rw [List.foldlM_cons, steps, List.foldl_cons]
      exact ih (next state item)

end Items

section Lengths

variable {bs : Nat}

theorem asPathGetlenInt_encode (path : AsPath bs) : asPathGetlenInt (encode path) bs = some (items path).length := by
  let step (res : Nat) (_item : Item bs) : Except (Exit Nat) Nat := .ok (res + 1)
  have sum (asns : List (Asn bs)) (res : Nat) :
      asns.foldlM (fun res as => step res (.asn as)) res = .ok (res + asns.length) := by
    induction asns generalizing res with
    | nil => rfl
    | cons first rest ih =>
        rw [List.foldlM_cons, List.length_cons, Nat.add_comm rest.length, ← Nat.add_assoc]
        exact ih (res + 1)
  have byItems : ByItems (fun kind (asns : List (Asn bs)) res =>
      if kind = asPathSet then .ok (res + 1)
      else if kind = asPathSequence then .ok (res + asns.length)
      else .error .bug) step :=
    ⟨fun _ _ _ => if_pos rfl, fun asns res _ => (sum asns res).symm⟩
  have counted : (items path).foldl (fun res _ => res + 1) 0 = (items path).length := by
    rw [List.foldl_eq_foldr_reverse]
    simp
  rw [asPathGetlenInt, byItems.overBlocks, foldlM_ok fun _ _ => rfl, counted]
  rfl

theorem asPathGetlen_encode (path : AsPath 4) : asPathGetlen (encode path) = some (items path).length :=
  asPathGetlenInt_encode path

end Lengths

section Ends

/-- The number of an item that is one. -/
def Item.as? {bs : Nat} : Item bs → Option (Asn bs)
  | .asn as => some as
  | .set _ => none

theorem asPathGetLast_encode (path : AsPath 4) :
    asPathGetLast (encode path) = some ((items path).getLast?.bind Item.as?) := by
  let step (_found : Option (Asn 4)) (item : Item 4) : Except (Exit (Option (Asn 4))) (Option (Asn 4)) := .ok item.as?
  have last (asns : List (Asn 4)) (found : Option (Asn 4)) (nonempty : asns ≠ []) :
      asns.foldlM (fun found as => step found (.asn as)) found = .ok asns.getLast? := by
    induction asns generalizing found with
    | nil => contradiction
    | cons first rest ih =>
        cases rest with
        | nil => rfl
        | cons second others =>
            rw [List.foldlM_cons, List.getLast?_cons_cons]
            exact ih (some first) (List.cons_ne_nil _ _)
  have byItems : ByItems (fun kind (asns : List (Asn 4)) found =>
      if kind = asPathSet then .ok (if asns.length ≠ 0 then none else found)
      else if kind = asPathSequence then .ok (if asns.length ≠ 0 then asns.getLast? else found)
      else .error .bug) step := by
    refine ⟨fun asns found nonempty => ?_, fun asns found nonempty => ?_⟩
    · rw [if_pos rfl, if_pos (by simpa using nonempty)]
      rfl
    · rw [if_neg sequence_ne_set, if_pos rfl, if_pos (by simpa using nonempty)]
      exact (last asns found nonempty).symm
  rw [asPathGetLast, byItems.overBlocks, foldlM_ok fun _ _ => rfl, result]
  refine congrArg some ?_
  rcases List.eq_nil_or_concat (items path) with empty | ⟨front, item, split⟩
  · rw [empty]
    rfl
  · rw [split]
    simp

theorem asPathGetFirst_encode (path : AsPath 4) : asPathGetFirst (encode path) = (items path).head?.bind Item.as? := by
  cases path with
  | nil => rfl
  | cons segment rest =>
      rw [encode_cons, Segment.bytes, blockBytes, List.cons_append, List.cons_append, asPathGetFirst, items_cons]
      rcases segment.cases_kind with ⟨set, alone⟩ | ⟨sequence, each⟩
      · rw [set, alone, if_pos (.inl sequence_ne_set.symm)]
        rfl
      · obtain ⟨first, others, split⟩ := List.exists_cons_of_ne_nil segment.nonempty
        have counted : UInt8.ofNat segment.asns.length ≠ 0 := by
          intro zero
          exact segment.length_pos (segment.toNat_count ▸ congrArg UInt8.toNat zero)
        rw [if_neg (by simp [sequence, counted]), each, split, table_cons, List.append_assoc, number_digits]
        rfl

/-- The numbers before the first set. -/
def nonaggregated {bs : Nat} : List (Item bs) → List (Asn bs)
  | .asn as :: rest => as :: nonaggregated rest
  | _ => []

theorem asPathGetLastNonaggregated_encode (path : AsPath 4) :
    asPathGetLastNonaggregated (encode path) = some ((nonaggregated (items path)).getLast?.getD 0) := by
  let step (res : Asn 4) : Item 4 → Except (Exit (Asn 4)) (Asn 4)
    | .asn as => .ok as
    | .set _ => .error (.returned res)
  have last (asns : List (Asn 4)) (res : Asn 4) : asns.foldlM (fun res as => step res (.asn as)) res =
      .ok (asns.getLast?.getD res) := by
    induction asns generalizing res with
    | nil => rfl
    | cons first rest ih =>
        rw [List.foldlM_cons, List.getLast?_cons]
        exact ih first
  have byItems : ByItems (fun kind (asns : List (Asn 4)) res =>
      if kind = asPathSet then .error (.returned res)
      else if kind = asPathSequence then .ok (if asns.length ≠ 0 then asns.getLast?.getD res else res)
      else .error .bug) step := by
    refine ⟨fun asns res _ => if_pos rfl, fun asns res nonempty => ?_⟩
    rw [if_neg sequence_ne_set, if_pos rfl, if_pos (by simpa using nonempty)]
    exact (last asns res).symm
  have ends (path : List (Item 4)) (res : Asn 4) : result id (path.foldlM step res) =
      some ((nonaggregated path).getLast?.getD res) := by
    induction path generalizing res with
    | nil => rfl
    | cons item rest ih =>
        cases item with
        | set asns => rfl
        | asn as =>
            rw [List.foldlM_cons, nonaggregated, List.getLast?_cons]
            exact ih as
  rw [asPathGetLastNonaggregated, byItems.overBlocks, ends]

end Ends

section Contains

def Item.asns {bs : Nat} : Item bs → List (Asn bs)
  | .asn as => [as]
  | .set asns => asns

theorem countAs_append (as : Asn 4) (min : Nat) (front rest : List (Asn 4)) (num : Nat) :
    countAs as min (front ++ rest) num = countAs as min front num >>= countAs as min rest := by
  induction front generalizing num with
  | nil => rfl
  | cons first others ih =>
      rw [List.cons_append, countAs, countAs]
      split
      · split
        · rfl
        · exact ih (num + 1)
      · exact ih num

theorem countAs_eq (as : Asn 4) {min num : Nat} (few : num < min) (asns : List (Asn 4)) :
    countAs as min asns num =
      if num + asns.count as < min then .ok (num + asns.count as) else .error (.returned true) := by
  induction asns generalizing num with
  | nil => rw [List.count_nil, Nat.add_zero, if_pos few, countAs]
  | cons first rest ih =>
      rw [countAs]
      by_cases same : first = as
      · rw [if_pos same, same, List.count_cons_self]
        by_cases enough : num + 1 = min
        · rw [if_pos enough, if_neg (by omega)]
        · rw [if_neg enough, ih (by omega)]
          simp only [Nat.add_assoc, Nat.add_comm 1]
      · rw [if_neg same, ih few, List.count_cons_of_ne same]

theorem asPathContains_encode (path : AsPath 4) (as : Asn 4) {min : Nat} (positive : 0 < min) :
    asPathContains (encode path) as min = some (decide (min ≤ ((items path).flatMap Item.asns).count as)) := by
  have byItems : ByItems (fun _ asns num => countAs as min asns num) fun num item => countAs as min item.asns num := by
    refine ⟨fun _ _ _ => rfl, fun asns num _ => ?_⟩
    induction asns generalizing num with
    | nil => rfl
    | cons first rest ih =>
        rw [List.foldlM_cons]
        cases rest with
        | nil => exact (bind_pure _).symm
        | cons second others =>
            rw [← List.singleton_append, countAs_append]
            exact congrArg _ (funext fun num => ih num (List.cons_ne_nil _ _))
  have whole (path : List (Item 4)) (num : Nat) :
      path.foldlM (fun num item => countAs as min item.asns num) num = countAs as min (path.flatMap Item.asns) num := by
    induction path generalizing num with
    | nil => rfl
    | cons item rest ih =>
        rw [List.foldlM_cons, List.flatMap_cons, countAs_append]
        exact congrArg _ (funext ih)
  rw [asPathContains, byItems.overBlocks, whole, countAs_eq as positive, Nat.zero_add]
  by_cases few : ((items path).flatMap Item.asns).count as < min
  · rw [if_pos few, decide_eq_false (by omega)]
    rfl
  · rw [if_neg few, decide_eq_true (by omega)]
    rfl

end Contains

section Prepend

variable {bs : Nat}

def single (as : Asn bs) : Segment bs := ⟨false, [as], List.cons_ne_nil _ _, by simp⟩

/-- The first segment grows where it is a sequence with room for another number. -/
def prepend (as : Asn bs) : AsPath bs → AsPath bs
  | [] => [single as]
  | segment :: rest =>
      if room : segment.isSet = false ∧ segment.asns.length < 255 then
        ⟨false, as :: segment.asns, List.cons_ne_nil _ _, Nat.succ_lt_succ room.2⟩ :: rest
      else single as :: segment :: rest

theorem items_prepend (as : Asn bs) (path : AsPath bs) : items (prepend as path) = .asn as :: items path := by
  cases path with
  | nil => rfl
  | cons segment rest =>
      rw [prepend]
      split
      · next room => simp [Segment.items, room.1]
      · rfl

theorem asPathPrepend_encode (path : AsPath 4) (as : Asn 4) :
    asPathPrepend (encode path) as = encode (prepend as path) := by
  cases path with
  | nil => rfl
  | cons segment rest =>
      have limit : UInt8.ofNat segment.asns.length < 255 ↔ segment.asns.length < 255 := by
        rw [UInt8.lt_iff_toNat_lt, segment.toNat_count]
        rfl
      have kind : segment.kind = asPathSequence ↔ segment.isSet = false := by
        cases isSet : segment.isSet <;> simp [Segment.kind, isSet, sequence_ne_set.symm]
      rw [encode_cons, Segment.bytes, blockBytes, List.cons_append, List.cons_append, asPathPrepend, prepend]
      simp only [limit, kind]
      by_cases room : segment.isSet = false ∧ segment.asns.length < 255
      · rw [if_pos room, dif_pos room, encode_cons, Segment.bytes, blockBytes, List.length_cons]
        simp [Segment.kind, UInt8.ofNat_add]
      · rw [if_neg room, dif_neg room, encode_cons, encode_cons]
        rfl

end Prepend

section Filter

variable {bs : Nat} (keep : Asn bs → Bool)

def Segment.filter (segment : Segment bs) : Option (Segment bs) :=
  if some_kept : segment.asns.filter keep ≠ [] then
    some ⟨segment.isSet, segment.asns.filter keep, some_kept,
      (List.length_filter_le keep segment.asns).trans_lt segment.short⟩
  else none

/-- Segments that become empty are left out. -/
def filterPath (path : AsPath bs) : AsPath bs := path.filterMap (Segment.filter keep)

/-- Sets lose members, and vanish with the last one. -/
def Item.filter : Item bs → Option (Item bs)
  | .asn as => if keep as then some (.asn as) else none
  | .set asns => if asns.filter keep ≠ [] then some (.set (asns.filter keep)) else none

theorem Segment.items_filter (segment : Segment bs) :
    (segment.filter keep).elim [] Segment.items = segment.items.filterMap (Item.filter keep) := by
  have each : (segment.asns.map Item.asn).filterMap (Item.filter keep) = (segment.asns.filter keep).map .asn := by
    rw [List.filterMap_map, ← List.filterMap_eq_map, ← List.filterMap_eq_filter, List.filterMap_filterMap]
    refine congrArg (fun f => List.filterMap f segment.asns) (funext fun as => ?_)
    cases kept : keep as <;> simp [Item.filter, kept, Option.guard]
  unfold Segment.filter
  cases isSet : segment.isSet with
  | true => by_cases some_kept : segment.asns.filter keep ≠ [] <;> simp [Segment.items, isSet, Item.filter, some_kept]
  | false =>
      by_cases some_kept : segment.asns.filter keep ≠ []
      · simp [Segment.items, isSet, some_kept, each]
      · simp [Segment.items, isSet, each, not_not.mp some_kept]

theorem items_filterPath (path : AsPath bs) : items (filterPath keep path) = (items path).filterMap (Item.filter keep) := by
  induction path with
  | nil => rfl
  | cons segment rest ih =>
      rw [items_cons, List.filterMap_append, ← segment.items_filter keep, ← ih, filterPath, List.filterMap_cons]
      cases segment.filter keep <;> rfl

theorem Segment.length_bytes (segment : Segment bs) : segment.bytes.length = 2 + bs * segment.asns.length := by
  rw [Segment.bytes, blockBytes, List.length_cons, List.length_cons, length_table]
  omega

theorem length_filterPath (path : AsPath bs) : (encode (filterPath keep path)).length ≤ (encode path).length := by
  induction path with
  | nil => exact Nat.le_refl 0
  | cons segment rest ih =>
      have fewer := Nat.mul_le_mul_left bs (List.length_filter_le keep segment.asns)
      rw [filterPath, List.filterMap_cons, encode_cons, List.length_append]
      cases filtered : segment.filter keep with
      | none => exact Nat.le_add_left_of_le ih
      | some other =>
          unfold Segment.filter at filtered
          split at filtered
          · cases filtered
            simp only [encode_cons, List.length_append, Segment.length_bytes]
            exact Nat.add_le_add (Nat.add_le_add_left fewer 2) ih
          · cases filtered

theorem filterPath_eq_self {path : AsPath 4} {keep : Asn 4 → Bool}
    (same : (encode (filterPath keep path)).length = (encode path).length) : filterPath keep path = path := by
  induction path with
  | nil => rfl
  | cons segment rest ih =>
      have shorter := length_filterPath keep rest
      have fewer := List.length_filter_le keep segment.asns
      rw [filterPath, List.filterMap_cons] at same ⊢
      cases filtered : segment.filter keep with
      | none =>
          rw [filtered, encode_cons, List.length_append, Segment.length_bytes] at same
          have own : (encode (filterPath keep rest)).length = 2 + 4 * segment.asns.length + (encode rest).length := same
          omega
      | some other =>
          rw [filtered] at same
          unfold Segment.filter at filtered
          split at filtered
          · cases filtered
            simp only [encode_cons, List.length_append, Segment.length_bytes] at same
            have own : 2 + 4 * (segment.asns.filter keep).length + (encode (filterPath keep rest)).length =
                2 + 4 * segment.asns.length + (encode rest).length := same
            have all : segment.asns.filter keep = segment.asns :=
              List.filter_eq_self.mpr (List.length_filter_eq_length_iff.mp (by omega))
            have later : rest.filterMap (Segment.filter keep) = rest := ih (by omega)
            simp only [all, later]
          · cases filtered

theorem asPathFilter_encode (path : AsPath 4) (matching : Asn 4 → Bool) (pos : Bool) :
    asPathFilter (encode path) matching pos = some (encode (filterPath (fun as => matching as == pos) path)) := by
  have loop (path : AsPath 4) (d : Bytes) : path.foldlM (fun (d : Bytes) (segment : Segment 4) =>
      let kept := segment.asns.filter fun as => matching as == pos
      (.ok (if kept.length > 0 then d ++ blockBytes segment.kind kept else d) :
        Except (Exit Bytes) Bytes)) d = .ok (d ++ encode (filterPath (fun as => matching as == pos) path)) := by
    induction path generalizing d with
    | nil => simp [filterPath]; rfl
    | cons segment rest ih =>
        rw [List.foldlM_cons, filterPath, List.filterMap_cons]
        refine (ih _).trans (congrArg Except.ok ?_)
        by_cases some_kept : segment.asns.filter (fun as => matching as == pos) ≠ []
        · rw [if_pos (List.length_pos_iff.mpr some_kept), Segment.filter, dif_pos some_kept, List.append_assoc]
          rfl
        · rw [if_neg (by simpa using some_kept), Segment.filter, dif_neg some_kept]
          rfl
  rw [asPathFilter, overBlocks_encode, loop, List.nil_append, result]
  split
  · next same => rw [filterPath_eq_self same]
  · rfl

end Filter

section Changes

/-- What a filter does to a path: `prepend`, `delete` and `filter`. -/
inductive Change where
  | prepend (as : Asn 4)
  | filter (matching : Asn 4 → Bool) (pos : Bool)

def Change.run : Change → Bytes → Option Bytes
  | .prepend as, path => some (asPathPrepend path as)
  | .filter matching pos, path => asPathFilter path matching pos

/-- The change of the list that the path stands for. -/
def Change.apply : Change → List (Item 4) → List (Item 4)
  | .prepend as, list => .asn as :: list
  | .filter matching pos, list => list.filterMap (Item.filter fun as => matching as == pos)

/-- The bytes are those of a valid path, and every function reads the list from them. -/
structure Shows (path : Bytes) (list : List (Item 4)) : Prop where
  valid : ∃ segments : AsPath 4, path = encode segments ∧ items segments = list
  getlen : asPathGetlen path = some list.length
  first : asPathGetFirst path = list.head?.bind Item.as?
  last : asPathGetLast path = some (list.getLast?.bind Item.as?)
  lastNonaggregated : asPathGetLastNonaggregated path = some ((nonaggregated list).getLast?.getD 0)
  contains : ∀ as min, 0 < min → asPathContains path as min = some (decide (min ≤ (list.flatMap Item.asns).count as))

theorem shows_encode (path : AsPath 4) : Shows (encode path) (items path) where
  valid := ⟨path, rfl, rfl⟩
  getlen := asPathGetlen_encode path
  first := asPathGetFirst_encode path
  last := asPathGetLast_encode path
  lastNonaggregated := asPathGetLastNonaggregated_encode path
  contains := fun as _ positive => asPathContains_encode path as positive

theorem run_encode (change : Change) (path : AsPath 4) :
    ∃ after : AsPath 4, change.run (encode path) = some (encode after) ∧ items after = change.apply (items path) := by
  cases change with
  | prepend as => exact ⟨prepend as path, congrArg some (asPathPrepend_encode path as), items_prepend as path⟩
  | filter matching pos =>
      exact ⟨filterPath (fun as => matching as == pos) path, asPathFilter_encode path matching pos,
        items_filterPath _ path⟩

/-- However a path is changed, it stays valid, and its bytes are read as the changed list. -/
theorem changes_shown (changes : List Change) (path : AsPath 4) :
    ∃ after, changes.foldlM (fun path change => change.run path) (encode path) = some after ∧
      Shows after (changes.foldl (fun list change => change.apply list) (items path)) := by
  induction changes generalizing path with
  | nil => exact ⟨encode path, rfl, shows_encode path⟩
  | cons change rest ih =>
      obtain ⟨middle, first, listed⟩ := run_encode change path
      obtain ⟨after, later, shown⟩ := ih middle
      refine ⟨after, ?_, ?_⟩
      · rw [List.foldlM_cons, first]
        exact later
      · rw [List.foldl_cons, ← listed]
        exact shown

end Changes

end ActiveBgp.Bird.Path

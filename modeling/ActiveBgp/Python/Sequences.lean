import ActiveBgp.Python.Collections

namespace ActiveBgp.Python

variable {α : Type*}

structure Slice where
  start : Option Int
  stop : Option Int
  step : Option Int
deriving DecidableEq, Repr

namespace Slice

def stride (slice : Slice) : Int := slice.step.getD 1

/-- `slice.indices(length)`, for a step that is not zero. -/
def bounds (slice : Slice) (length : Nat) : Int × Int :=
  let lower : Int := if slice.stride < 0 then -1 else 0
  let upper : Int := if slice.stride < 0 then length - 1 else length
  let clamp (index : Int) : Int := if index < 0 then max (index + length) lower else min index upper
  ((slice.start.map clamp).getD (if slice.stride < 0 then upper else lower),
    (slice.stop.map clamp).getD (if slice.stride < 0 then lower else upper))

/-- The position is in `range(*slice.indices(length))`. -/
def selects (slice : Slice) (length position : Nat) : Bool :=
  let (start, stop) := slice.bounds length
  if slice.stride < 0 then stop < position ∧ position ≤ start ∧ (start - position) % slice.stride = 0
  else start ≤ position ∧ position < stop ∧ (position - start) % slice.stride = 0

end Slice

/-- `del values[slice]`, for a step that is not zero. -/
def deleteSlice (values : List α) (slice : Slice) : List α :=
  (values.zipIdx.filter fun item => !slice.selects values.length item.2).map Prod.fst

/-- `values * count` -/
def repeated (values : List α) (count : Int) : List α := (List.replicate count.toNat values).flatten

/-- `values.sort(reverse=descending)`, which is stable in both directions. -/
def sortBy (le : α → α → Prop) [DecidableRel le] (descending : Bool) (values : List α) : List α :=
  if descending then (values.reverse.insertionSort le).reverse else values.insertionSort le

/-- The order in which a sort leaves the list when a comparison raises. -/
structure FailedSort (α : Type*) where
  left : List α → List α
  perm : ∀ values, (left values).Perm values

theorem deleteSlice_eq_self {values : List α} {slice : Slice} :
    deleteSlice values slice = values ↔ ∀ position < values.length, slice.selects values.length position = false := by
  have all : deleteSlice values slice = values ↔
      ∀ item ∈ values.zipIdx, slice.selects values.length item.2 = false := by
    constructor
    · intro same item member
      have length : (values.zipIdx.filter fun item => !slice.selects values.length item.2).length =
          values.zipIdx.length := by
        have unchanged := congrArg List.length same
        simpa only [deleteSlice, List.length_map, List.length_zipIdx] using unchanged
      simpa using List.length_filter_eq_length_iff.mp length item member
    · intro none
      have kept : (values.zipIdx.filter fun item => !slice.selects values.length item.2) = values.zipIdx :=
        List.filter_eq_self.mpr fun item member => by simpa using none item member
      rw [deleteSlice, kept, List.zipIdx_map_fst]
  rw [all]
  constructor
  · intro none position inside
    exact none (values[position], position) (List.mk_mem_zipIdx_iff_getElem?.mpr (List.getElem?_eq_getElem inside))
  · intro none item member
    have found := List.mem_zipIdx_iff_getElem?.mp member
    exact none item.2 (List.getElem?_eq_some_iff.mp found).1

theorem repeated_eq_self {values : List α} {count : Int} : repeated values count = values ↔ count = 1 ∨ values = [] := by
  have length : (repeated values count).length = count.toNat * values.length := by
    simp [repeated, List.length_flatten]
  constructor
  · intro same
    by_contra neither
    obtain ⟨notOne, nonempty⟩ := not_or.mp neither
    have positive : 0 < values.length := List.length_pos_of_ne_nil nonempty
    have once : count.toNat * values.length = 1 * values.length := by rw [← length, same, Nat.one_mul]
    have one : count.toNat = 1 := Nat.eq_of_mul_eq_mul_right positive once
    omega
  · rintro (rfl | rfl)
    · simp [repeated]
    · simp [repeated]

section Sorting

variable {le : α → α → Prop} [DecidableRel le] [Std.Total le] [IsTrans α le] {values : List α}

theorem insertionSort_eq_self : values.insertionSort le = values ↔ values.Pairwise le :=
  ⟨fun same => same ▸ List.pairwise_insertionSort le values, List.Pairwise.insertionSort_eq⟩

theorem sortBy_eq_self {descending : Bool} :
    sortBy le descending values = values ↔
      values.Pairwise fun first second => if descending then le second first else le first second := by
  cases descending with
  | false => simpa [sortBy] using insertionSort_eq_self
  | true =>
      have turned : (values.reverse.insertionSort le).reverse = values ↔
          values.reverse.insertionSort le = values.reverse :=
        List.reverse_eq_iff
      simpa [sortBy, List.pairwise_reverse] using turned.trans insertionSort_eq_self

end Sorting

end ActiveBgp.Python

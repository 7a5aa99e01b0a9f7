import Mathlib.Data.List.Nodup
import Mathlib.Data.List.Sort
import Mathlib.Data.Finset.Dedup
import Mathlib.Tactic.Common

namespace ActiveBgp.Python

/-! # Lists, insertion-ordered sets and insertion-ordered dictionaries

The list operations take Python's signed indices.  `IndexedSet` and `Dict`
carry the proof that their keys are distinct, so that clients never have to
re-establish it.
-/

section Lists

variable {α : Type*}

/-- The position a signed index denotes, or `none` where Python raises `IndexError`. -/
def position? (length : Nat) (index : Int) : Option Nat :=
  if 0 ≤ index ∧ index < length then some index.toNat
  else if index < 0 ∧ 0 ≤ index + length then some (index + length).toNat
  else none

def setItem? (values : List α) (index : Int) (value : α) : Option (List α) :=
  (position? values.length index).map fun position => values.set position value

/-- `values.insert(index, value)`: indices outside the list are clamped. -/
def insertAt (values : List α) (index : Int) (value : α) : List α :=
  let position := if index < 0 then (index + values.length).toNat else index.toNat
  values.take position ++ value :: values.drop position

def pop? (values : List α) (index : Int) : Option (List α) :=
  (position? values.length index).map values.eraseIdx

def remove? [DecidableEq α] (values : List α) (value : α) : Option (List α) :=
  if value ∈ values then some (values.erase value) else none

variable {values after : List α} {index : Int} {value member : α}

theorem position?_lt {length position : Nat} (found : position? length index = some position) : position < length := by
  unfold position? at found
  split at found
  · cases found
    omega
  · split at found
    · cases found
      omega
    · contradiction

theorem mem_setItem? (done : setItem? values index value = some after) (inside : member ∈ after) :
    member ∈ values ∨ member = value := by
  obtain ⟨position, _, rfl⟩ := Option.map_eq_some_iff.mp done
  exact List.mem_or_eq_of_mem_set inside

theorem mem_insertAt (inside : member ∈ insertAt values index value) :
    member ∈ values ∨ member = value := by
  simp only [insertAt, List.mem_append, List.mem_cons] at inside
  rcases inside with early | rfl | late
  · exact .inl (List.mem_of_mem_take early)
  · exact .inr rfl
  · exact .inl (List.mem_of_mem_drop late)

theorem mem_pop? (done : pop? values index = some after) (inside : member ∈ after) :
    member ∈ values := by
  obtain ⟨position, _, rfl⟩ := Option.map_eq_some_iff.mp done
  exact List.mem_of_mem_eraseIdx inside

theorem mem_remove? [DecidableEq α] (done : remove? values value = some after)
    (inside : member ∈ after) : member ∈ values := by
  unfold remove? at done
  split at done
  · cases done
    exact List.mem_of_mem_erase inside
  · contradiction

end Lists

section Sorted

variable {α : Type*} [LinearOrder α]

/-- `sorted` of a set; the order in which the set iterates does not matter. -/
def sorted (set : Finset α) : List α :=
  Quotient.lift (List.insertionSort (· ≤ ·)) (fun first second same =>
    List.Perm.eq_of_sortedLE List.sortedLE_insertionSort List.sortedLE_insertionSort
      (((List.perm_insertionSort _ first).trans same).trans (List.perm_insertionSort _ second).symm)) set.val

theorem sorted_toFinset {order : List α} (distinct : order.Nodup) :
    sorted order.toFinset = order.insertionSort (· ≤ ·) := by
  have elements : order.toFinset.val = (order : Multiset α) := by
    rw [List.toFinset_val, distinct.dedup]
  rw [sorted, elements]
  rfl

@[simp] theorem toFinset_sorted (set : Finset α) : (sorted set).toFinset = set := by
  obtain ⟨elements, distinct⟩ := set
  induction elements using Quotient.ind with
  | _ list =>
      ext value
      change value ∈ (List.insertionSort (· ≤ ·) list).toFinset ↔ value ∈ list
      rw [List.mem_toFinset, List.mem_insertionSort]

theorem nodup_sorted (set : Finset α) : (sorted set).Nodup := by
  obtain ⟨elements, distinct⟩ := set
  induction elements using Quotient.ind with
  | _ list => exact (List.perm_insertionSort _ list).nodup_iff.mpr distinct

theorem sorted_injective : Function.Injective (sorted : Finset α → List α) := fun first second same => by
  rw [← toFinset_sorted first, same, toFinset_sorted]

end Sorted

/-- The order in which a set iterates may be another one every time. -/
structure SetOrder (α : Type*) [DecidableEq α] where
  items : Nat → Finset α → List α
  distinct : ∀ time set, (items time set).Nodup
  complete : ∀ time set, (items time set).toFinset = set

def SetOrder.sorted {α : Type*} [LinearOrder α] : SetOrder α where
  items _ set := Python.sorted set
  distinct _ set := nodup_sorted set
  complete _ set := toFinset_sorted set

/-- A set that iterates in the order of first insertion. -/
structure IndexedSet (α : Type*) where
  items : List α
  distinct : items.Nodup

namespace IndexedSet

@[ext] theorem ext {α : Type*} {left right : IndexedSet α} (same : left.items = right.items) :
    left = right := by
  cases left; cases right; cases same; rfl

variable {α : Type*} [DecidableEq α]

def empty : IndexedSet α := ⟨[], List.nodup_nil⟩

def add (set : IndexedSet α) (value : α) : IndexedSet α :=
  if present : value ∈ set.items then set
  else ⟨set.items ++ [value], by
    simpa [List.nodup_append, set.distinct] using fun member inside =>
      (ne_of_mem_of_not_mem inside present)⟩

theorem items_add (set : IndexedSet α) (value : α) :
    (set.add value).items = if value ∈ set.items then set.items else set.items ++ [value] := by
  unfold add
  split <;> rfl

theorem add_of_mem {set : IndexedSet α} {value : α} (present : value ∈ set.items) : set.add value = set := by
  unfold add
  rw [dif_pos present]

@[simp] theorem mem_add (set : IndexedSet α) (value member : α) :
    member ∈ (set.add value).items ↔ member ∈ set.items ∨ member = value := by
  rw [items_add]
  split
  · rename_i present
    exact ⟨.inl, fun either => either.elim id fun same => same ▸ present⟩
  · simp

theorem head?_add (set : IndexedSet α) (value : α) {first : α}
    (head : set.items.head? = some first) : (set.add value).items.head? = some first := by
  rw [items_add]
  split
  · exact head
  · simp [List.head?_append, head]

end IndexedSet

/-- A dictionary that iterates in the order in which its keys were first set. -/
structure Dict (κ ν : Type*) where
  entries : List (κ × ν)
  distinct : (entries.map Prod.fst).Nodup

namespace Dict

variable {κ ν : Type*} [DecidableEq κ]

def empty : Dict κ ν := ⟨[], List.nodup_nil⟩

def keys (dict : Dict κ ν) : List κ := dict.entries.map Prod.fst

def values (dict : Dict κ ν) : List ν := dict.entries.map Prod.snd

def lookup (key : κ) : List (κ × ν) → Option ν
  | [] => none
  | (first, value) :: rest => if first = key then some value else lookup key rest

def assign (key : κ) (value : ν) : List (κ × ν) → List (κ × ν)
  | [] => [(key, value)]
  | (first, old) :: rest =>
      if first = key then (key, value) :: rest else (first, old) :: assign key value rest

def get? (dict : Dict κ ν) (key : κ) : Option ν := lookup key dict.entries

theorem keys_assign (key : κ) (value : ν) (entries : List (κ × ν)) :
    (assign key value entries).map Prod.fst =
      if key ∈ entries.map Prod.fst then entries.map Prod.fst
      else entries.map Prod.fst ++ [key] := by
  induction entries with
  | nil => rfl
  | cons entry rest ih =>
      obtain ⟨first, old⟩ := entry
      by_cases same : first = key
      · simp [assign, same]
      · have different : key ≠ first := fun equal => same equal.symm
        simp only [assign, if_neg same, List.map_cons, ih, List.mem_cons, different, false_or]
        split <;> rfl

/-- `dict[key] = value`: an existing key keeps its place. -/
def set (dict : Dict κ ν) (key : κ) (value : ν) : Dict κ ν :=
  ⟨assign key value dict.entries, by
    rw [keys_assign]
    split
    · exact dict.distinct
    · rename_i absent
      exact List.nodup_append.mpr ⟨dict.distinct, List.nodup_singleton key, by
        intro member inside other single same
        rw [List.mem_singleton.mp single] at same
        exact absent (same ▸ inside)⟩⟩

theorem entries_set (dict : Dict κ ν) {key : κ} (absent : key ∉ dict.keys) (value : ν) :
    (dict.set key value).entries = dict.entries ++ [(key, value)] := by
  obtain ⟨entries, distinct⟩ := dict
  change assign key value entries = entries ++ [(key, value)]
  change key ∉ entries.map Prod.fst at absent
  clear distinct
  induction entries with
  | nil => rfl
  | cons entry rest ih =>
      obtain ⟨different, later⟩ : key ≠ entry.1 ∧ key ∉ rest.map Prod.fst := by simpa using absent
      simp [assign, Ne.symm different, ih later]

/-- `del dict[key]`, for a key that is present. -/
def erase (dict : Dict κ ν) (key : κ) : Dict κ ν :=
  ⟨dict.entries.filter (·.1 ≠ key), dict.distinct.sublist (List.filter_sublist.map _)⟩

theorem keys_erase (dict : Dict κ ν) (key : κ) : (dict.erase key).keys = dict.keys.filter (· ≠ key) := by
  rw [keys, keys, List.filter_map]
  rfl

theorem keys_set (dict : Dict κ ν) (key : κ) (value : ν) :
    (dict.set key value).keys = if key ∈ dict.keys then dict.keys else dict.keys ++ [key] :=
  keys_assign key value dict.entries

def setDefault (dict : Dict κ ν) (entry : κ × ν) : Dict κ ν :=
  if entry.1 ∈ dict.keys then dict else dict.set entry.1 entry.2

theorem entries_foldl_new {ι : Type*} {step : Dict κ ν → ι → Dict κ ν} {key : ι → κ} {value : ι → ν}
    (new : ∀ dict item, key item ∉ dict.keys → step dict item = dict.set (key item) (value item)) {items : List ι}
    {dict : Dict κ ν} (distinct : (dict.keys ++ items.map key).Nodup) :
    (items.foldl step dict).entries = dict.entries ++ items.map fun item => (key item, value item) := by
  induction items generalizing dict with
  | nil => simp
  | cons item rest ih =>
      have absent : key item ∉ dict.keys := fun member =>
        (List.nodup_append.mp distinct).2.2 _ member (key item) (by simp) rfl
      have keys : (dict.set (key item) (value item)).keys = dict.keys ++ [key item] := by
        rw [keys_set, if_neg absent]
      rw [List.foldl_cons, new dict item absent, ih (by simpa [keys] using distinct), entries_set dict absent]
      simp

theorem entries_setDefault {dict : Dict κ ν} {entries : List (κ × ν)}
    (distinct : (dict.keys ++ entries.map Prod.fst).Nodup) :
    (entries.foldl setDefault dict).entries = dict.entries ++ entries := by
  have new (dict : Dict κ ν) (entry : κ × ν) (absent : entry.1 ∉ dict.keys) :
      dict.setDefault entry = dict.set entry.1 entry.2 := if_neg absent
  simpa using entries_foldl_new new distinct

/-- The keys as a set: setting an entry adds its key. -/
def keySet (dict : Dict κ ν) : IndexedSet κ := ⟨dict.keys, dict.distinct⟩

theorem keySet_set (dict : Dict κ ν) (key : κ) (value : ν) :
    (dict.set key value).keySet = dict.keySet.add key := by
  apply IndexedSet.ext
  rw [IndexedSet.items_add]
  exact keys_set dict key value

@[simp] theorem get?_empty (key : κ) : (empty : Dict κ ν).get? key = none := rfl

theorem get?_set (dict : Dict κ ν) (key other : κ) (value : ν) :
    (dict.set key value).get? other = if key = other then some value else dict.get? other := by
  obtain ⟨entries, distinct⟩ := dict
  change lookup other (assign key value entries) = if key = other then some value else lookup other entries
  clear distinct
  induction entries with
  | nil => rfl
  | cons entry rest ih =>
      obtain ⟨first, old⟩ := entry
      by_cases same : first = key
      · subst same
        simp only [assign, if_true, lookup]
        split <;> rfl
      · simp only [assign, if_neg same, lookup, ih]
        by_cases found : first = other
        · simp [found, show key ≠ other from fun equal => same (found.trans equal.symm)]
        · simp [found]

@[simp] theorem get?_set_self (dict : Dict κ ν) (key : κ) (value : ν) :
    (dict.set key value).get? key = some value := by
  simp [get?_set]

theorem get?_set_ne (dict : Dict κ ν) {key other : κ} (value : ν) (different : key ≠ other) :
    (dict.set key value).get? other = dict.get? other := by
  simp [get?_set, different]

theorem set_of_get? {dict : Dict κ ν} {key : κ} {value : ν} (found : dict.get? key = some value) :
    dict.set key value = dict := by
  obtain ⟨entries, distinct⟩ := dict
  have same : assign key value entries = entries := by
    change lookup key entries = some value at found
    clear distinct
    induction entries with
    | nil => contradiction
    | cons entry rest ih =>
        obtain ⟨first, old⟩ := entry
        by_cases atKey : first = key
        · simp only [lookup, if_pos atKey, Option.some.injEq] at found
          simp [assign, atKey, found]
        · simp only [lookup, if_neg atKey] at found
          simp [assign, atKey, ih found]
  simp only [set, same]

theorem set_set (dict : Dict κ ν) (key : κ) (old new : ν) : (dict.set key old).set key new = dict.set key new := by
  obtain ⟨entries, distinct⟩ := dict
  have same : assign key new (assign key old entries) = assign key new entries := by
    clear distinct
    induction entries with
    | nil => simp [assign]
    | cons entry rest ih =>
        obtain ⟨first, value⟩ := entry
        by_cases atKey : first = key
        · simp [assign, atKey]
        · simp [assign, atKey, ih]
  simp only [set, same]

theorem get?_erase (dict : Dict κ ν) (key other : κ) :
    (dict.erase key).get? other = if key = other then none else dict.get? other := by
  obtain ⟨entries, distinct⟩ := dict
  change lookup other (entries.filter (·.1 ≠ key)) = if key = other then none else lookup other entries
  clear distinct
  induction entries with
  | nil => simp [lookup]
  | cons entry rest ih =>
      obtain ⟨first, old⟩ := entry
      by_cases same : first = key
      · subst same
        simp only [ne_eq, not_true_eq_false, decide_false, Bool.false_eq_true, not_false_eq_true,
          List.filter_cons_of_neg, lookup]
        by_cases found : first = other
        · simpa [found] using ih
        · simpa [found] using ih
      · simp only [ne_eq, same, not_false_eq_true, decide_true, List.filter_cons_of_pos, lookup]
        by_cases found : first = other
        · simp [found, show key ≠ other from fun equal => same (found.trans equal.symm)]
        · simpa [found] using ih

theorem mem_entries_of_get? {dict : Dict κ ν} {key : κ} {value : ν} (found : dict.get? key = some value) :
    (key, value) ∈ dict.entries := by
  obtain ⟨entries, distinct⟩ := dict
  change lookup key entries = some value at found
  change (key, value) ∈ entries
  clear distinct
  induction entries with
  | nil => contradiction
  | cons entry rest ih =>
      obtain ⟨first, old⟩ := entry
      by_cases same : first = key
      · simp only [lookup, if_pos same, Option.some.injEq] at found
        simp [same, found]
      · simp only [lookup, if_neg same] at found
        simp [ih found]

theorem mem_values {dict : Dict κ ν} {key : κ} {value : ν} (found : dict.get? key = some value) :
    value ∈ dict.values :=
  List.mem_map.mpr ⟨(key, value), mem_entries_of_get? found, rfl⟩

theorem get?_of_mem_entries {dict : Dict κ ν} {key : κ} {value : ν} (member : (key, value) ∈ dict.entries) :
    dict.get? key = some value := by
  obtain ⟨entries, distinct⟩ := dict
  change (key, value) ∈ entries at member
  change lookup key entries = some value
  induction entries with
  | nil => contradiction
  | cons entry rest ih =>
      obtain ⟨new, distinct⟩ := List.nodup_cons.mp distinct
      rcases List.mem_cons.mp member with rfl | later
      · simp [lookup]
      · have different : entry.1 ≠ key := fun same => new (same ▸ List.mem_map.mpr ⟨_, later, rfl⟩)
        rw [lookup, if_neg different, ih distinct later]

theorem exists_get?_of_mem_values {dict : Dict κ ν} {value : ν} (member : value ∈ dict.values) :
    ∃ key, dict.get? key = some value := by
  obtain ⟨⟨key, _⟩, inside, rfl⟩ := List.mem_map.mp member
  exact ⟨key, get?_of_mem_entries inside⟩

theorem mem_keys_iff (dict : Dict κ ν) (key : κ) :
    key ∈ dict.keys ↔ (dict.get? key).isSome = true := by
  obtain ⟨entries, distinct⟩ := dict
  change key ∈ entries.map Prod.fst ↔ (lookup key entries).isSome = true
  clear distinct
  induction entries with
  | nil => simp [lookup]
  | cons entry rest ih =>
      obtain ⟨first, old⟩ := entry
      by_cases same : first = key
      · simp [lookup, same]
      · have different : key ≠ first := fun equal => same equal.symm
        simpa [lookup, same, different] using ih

section Keyed

variable {ι : Type*} {key : ι → κ} {dict : Dict κ ν} {items : List ι}

theorem isSome_get?_iff_of_keys (injective : Function.Injective key) (keys : dict.keys = items.map key) (item : ι) :
    (dict.get? (key item)).isSome = true ↔ item ∈ items := by
  rw [← mem_keys_iff, keys, List.mem_map_of_injective injective]

theorem keys_set_of_keys (injective : Function.Injective key) (keys : dict.keys = items.map key) {item : ι}
    (new : item ∉ items) (value : ν) : (dict.set (key item) value).keys = (items ++ [item]).map key := by
  have absent : key item ∉ dict.keys := by rwa [keys, List.mem_map_of_injective injective]
  rw [keys_set, if_neg absent, keys]
  simp

/-- The keys that are set one after another are those of the dictionary. -/
theorem isSome_get?_foldl_set (key : ι → κ) (value : ι → ν) (items : List ι) (dict : Dict κ ν) (asked : κ) :
    ((items.foldl (fun dict item => dict.set (key item) (value item)) dict).get? asked).isSome = true ↔
      asked ∈ items.map key ∨ (dict.get? asked).isSome = true := by
  induction items generalizing dict with
  | nil => simp
  | cons first rest ih =>
      rw [List.foldl_cons, ih, get?_set]
      by_cases same : key first = asked
      · simp [same]
      · simp [same, Ne.symm same]

theorem entries_foldl_set {key : ι → κ} {items : List ι} {dict : Dict κ ν} (value : ι → ν)
    (distinct : (dict.keys ++ items.map key).Nodup) :
    (items.foldl (fun dict item => dict.set (key item) (value item)) dict).entries =
      dict.entries ++ items.map fun item => (key item, value item) :=
  entries_foldl_new (fun _ _ _ => rfl) distinct

end Keyed

theorem mem_entries_set {dict : Dict κ ν} {key : κ} {value : ν} {entry : κ × ν}
    (member : entry ∈ (dict.set key value).entries) : entry = (key, value) ∨ entry ∈ dict.entries := by
  obtain ⟨entries, distinct⟩ := dict
  change entry ∈ assign key value entries at member
  change entry = (key, value) ∨ entry ∈ entries
  clear distinct
  induction entries with
  | nil => exact .inl (by simpa [assign] using member)
  | cons first rest ih =>
      obtain ⟨other, old⟩ := first
      by_cases same : other = key
      · simp only [assign, if_pos same, List.mem_cons] at member
        exact member.imp id (List.mem_cons_of_mem _)
      · simp only [assign, if_neg same, List.mem_cons] at member
        rcases member with head | later
        · exact .inr (by simp [head])
        · exact (ih later).imp id (List.mem_cons_of_mem _)

end Dict

end ActiveBgp.Python

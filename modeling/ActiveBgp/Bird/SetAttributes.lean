import Mathlib.Data.Finset.Dedup
import Mathlib.Data.Finset.Basic
import Mathlib.Data.Finset.Filter

namespace ActiveBgp.Bird.SetAttribute

/-! # Set attributes

Communities, extended communities and large communities are lists in the order in
which their elements were added.  The three families of functions differ in the
number of words of an element only.
-/

section Functions

variable {α : Type} [DecidableEq α]

/-- No list stands for `NULL`. -/
def setContains (list : Option (List α)) (val : α) : Bool := (list.getD []).any (· = val)

def setPrepend (list : Option (List α)) (val : α) : Option (List α) :=
  if setContains list val then list else some (val :: list.getD [])

def setAdd (list : Option (List α)) (val : α) : Option (List α) :=
  if setContains list val then list else some (list.getD [] ++ [val])

/-- The new list has room for all elements but one, and `memory` is what the room held before. -/
def setDel (memory : Nat → α) (list : Option (List α)) (val : α) : Option (List α) :=
  if setContains list val then
    list.map fun l =>
      let kept := l.filter (· ≠ val)
      kept ++ ((List.range (l.length - 1)).drop kept.length).map memory
  else list

def setUnion : Option (List α) → Option (List α) → Option (List α)
  | none, l2 => l2
  | l1, none => l1
  | some l1, some l2 =>
      let tmp := l2.filter fun val => !setContains (some l1) val
      if tmp = [] then some l1 else some (l1 ++ tmp)

/-- `clist_filter` and its siblings. -/
def setFilter (list : Option (List α)) (member : α → Bool) (pos : Bool) : Option (List α) :=
  list.map fun l => l.filter fun val => member val == pos

end Functions

section Members

abbrev Community := UInt32

/-- The two halves of an extended community. -/
abbrev ExtendedCommunity := UInt32 × UInt32

abbrev LargeCommunity := UInt32 × UInt32 × UInt32

def intSetContains := setContains (α := Community)
def ecSetContains := setContains (α := ExtendedCommunity)
def lcSetContains := setContains (α := LargeCommunity)

def intSetPrepend := setPrepend (α := Community)

def intSetAdd := setAdd (α := Community)
def ecSetAdd := setAdd (α := ExtendedCommunity)
def lcSetAdd := setAdd (α := LargeCommunity)

def intSetDel := setDel (α := Community)
def ecSetDel := setDel (α := ExtendedCommunity)
def lcSetDel := setDel (α := LargeCommunity)

def intSetUnion := setUnion (α := Community)
def ecSetUnion := setUnion (α := ExtendedCommunity)
def lcSetUnion := setUnion (α := LargeCommunity)

def clistFilter := setFilter (α := Community)
def eclistFilter := setFilter (α := ExtendedCommunity)
def lclistFilter := setFilter (α := LargeCommunity)

end Members

section Deletion

variable {α : Type} [DecidableEq α] {memory : Nat → α} {l : List α} {val : α}

@[simp] theorem setContains_iff {list : Option (List α)} : setContains list val = true ↔ val ∈ list.getD [] := by
  simp [setContains]

theorem length_setDel (member : val ∈ l) (memory : Nat → α) :
    ((setDel memory (some l) val).getD []).length = l.length - 1 := by
  have fewer : (l.filter (· ≠ val)).length < l.length :=
    List.length_filter_lt_length_iff_exists.mpr ⟨val, member, by simp⟩
  rw [setDel, if_pos (by simpa using member)]
  simp only [Option.map_some, Option.getD_some, List.length_append, List.length_map, List.length_drop, List.length_range]
  omega

theorem length_filter_ne (l : List α) (val : α) : (l.filter (· ≠ val)).length + l.count val = l.length := by
  rw [List.count_eq_countP, ← List.countP_eq_length_filter]
  have split := List.length_eq_countP_add_countP (fun other => decide (other ≠ val)) (l := l)
  have same : List.countP (fun other => decide ¬decide (other ≠ val) = true) l = List.countP (· == val) l := by
    refine List.countP_congr fun other _ => ?_
    simp
  rw [same] at split
  exact split.symm

theorem setDel_exact (memory : Nat → α) (once : l.count val ≤ 1) :
    setDel memory (some l) val = some (l.filter (· ≠ val)) := by
  have total := length_filter_ne l val
  by_cases member : val ∈ l
  · have full : (List.range (l.length - 1)).drop (l.filter (· ≠ val)).length = [] := by
      refine List.drop_eq_nil_of_le ?_
      rw [List.length_range]
      omega
    rw [setDel, if_pos (by simpa using member), Option.map_some]
    simp only [full, List.map_nil, List.append_nil]
  · rw [setDel, if_neg (by simpa using member), List.filter_eq_self.mpr fun other inside => ?_]
    simpa using ne_of_mem_of_not_mem inside member

/-- What was in the memory before gets into the list just where the element is there more than once. -/
theorem setDel_exact_iff (memory : Nat → α) (l : List α) (val : α) :
    setDel memory (some l) val = some (l.filter (· ≠ val)) ↔ l.count val ≤ 1 := by
  refine ⟨fun exact => ?_, setDel_exact memory⟩
  by_contra several
  have member : val ∈ l := List.count_pos_iff.mp (by omega)
  have total := length_filter_ne l val
  have length := length_setDel member memory
  rw [exact, Option.getD_some] at length
  have nonempty : 0 < l.length := List.length_pos_of_mem member
  omega

end Deletion

section Changes

variable {α : Type} [DecidableEq α]

/-- What a filter does to a set attribute; a list that is added as a whole has no duplicates. -/
inductive Change (α : Type) where
  | prepend (val : α)
  | add (val : α)
  | del (val : α)
  | union (l2 : List α) (nodup : l2.Nodup)
  | filter (member : α → Bool) (pos : Bool)

def Change.run (memory : Nat → α) : Change α → Option (List α) → Option (List α)
  | .prepend val, list => setPrepend list val
  | .add val, list => setAdd list val
  | .del val, list => setDel memory list val
  | .union l2 _, list => setUnion list (some l2)
  | .filter member pos, list => setFilter list member pos

/-- The change of the list. -/
def Change.apply : Change α → List α → List α
  | .prepend val, l => if val ∈ l then l else val :: l
  | .add val, l => if val ∈ l then l else l ++ [val]
  | .del val, l => l.filter (· ≠ val)
  | .union l2 _, l => l ++ l2.filter (· ∉ l)
  | .filter member pos, l => l.filter fun val => member val == pos

/-- The change of the set. -/
def Change.denote : Change α → Finset α → Finset α
  | .prepend val, set | .add val, set => insert val set
  | .del val, set => set.erase val
  | .union l2 _, set => set ∪ l2.toFinset
  | .filter member pos, set => set.filter fun val => member val = pos

theorem run_eq_apply (memory : Nat → α) (change : Change α) {list : Option (List α)} (nodup : (list.getD []).Nodup) :
    (change.run memory list).getD [] = change.apply (list.getD []) := by
  cases change with
  | prepend val =>
      simp only [Change.run, Change.apply, setPrepend, setContains_iff]
      split <;> rfl
  | add val =>
      simp only [Change.run, Change.apply, setAdd, setContains_iff]
      split <;> rfl
  | del val =>
      cases list with
      | none => rfl
      | some l =>
          have exact := setDel_exact memory (List.nodup_iff_count_le_one.mp nodup val)
          exact congrArg (Option.getD · []) exact
  | union l2 _ =>
      cases list with
      | none => simp [Change.run, Change.apply, setUnion]
      | some l =>
          have new : (l2.filter fun val => !setContains (some l) val) = l2.filter (· ∉ l) := by
            refine List.filter_congr fun val _ => ?_
            have other : setContains (some l) val = decide (val ∈ l) := by
              rw [Bool.eq_iff_iff, setContains_iff, decide_eq_true_iff]
              rfl
            rw [other, decide_not]
          simp only [Change.run, Change.apply, setUnion, new, Option.getD_some]
          split
          · next none => rw [none, List.append_nil]; rfl
          · rfl
  | filter member pos => cases list <;> rfl

theorem Change.nodup (change : Change α) {l : List α} (nodup : l.Nodup) : (change.apply l).Nodup := by
  cases change with
  | prepend val =>
      simp only [apply]
      split
      · exact nodup
      · next absent => exact List.nodup_cons.mpr ⟨absent, nodup⟩
  | add val =>
      simp only [apply]
      split
      · exact nodup
      · next absent =>
          rw [← List.concat_eq_append]
          exact nodup.concat absent
  | del val => exact nodup.filter _
  | union l2 own =>
      refine nodup.append (own.filter _) fun val inside new => ?_
      simpa [inside] using (List.mem_filter.mp new).2
  | filter member pos => exact nodup.filter _

theorem Change.toFinset (change : Change α) (l : List α) : (change.apply l).toFinset = change.denote l.toFinset := by
  ext val
  cases change with
  | prepend other =>
      by_cases present : other ∈ l <;> simp [apply, denote, present]
  | add other =>
      by_cases present : other ∈ l
      · simp [apply, denote, present]
      · simp only [apply, denote, if_neg present, List.mem_toFinset, List.mem_append, List.mem_singleton, Finset.mem_insert,
          or_comm]
  | del other => simp [apply, denote, and_comm]
  | union l2 _ =>
      by_cases present : val ∈ l <;> simp [apply, denote, present]
  | filter member pos => simp [apply, denote]

/-- Whatever is done to a list without duplicates, it is the list for the set, and no memory gets into it. -/
theorem changes_refine (history : List ((Nat → α) × Change α)) (list : Option (List α)) (nodup : (list.getD []).Nodup) :
    let last := (history.foldl (fun list step => step.2.run step.1 list) list).getD []
    last = history.foldl (fun l step => step.2.apply l) (list.getD []) ∧ last.Nodup ∧
      last.toFinset = history.foldl (fun set step => step.2.denote set) (list.getD []).toFinset := by
  induction history generalizing list with
  | nil => exact ⟨rfl, nodup, rfl⟩
  | cons step rest ih =>
      have now := run_eq_apply step.1 step.2 nodup
      have later := ih (step.2.run step.1 list) (now ▸ step.2.nodup nodup)
      rw [now, step.2.toFinset] at later
      exact later

def exampleHistory : List ((Nat → Community) × Change Community) := [(fun _ => 0, .add 7), (fun _ => 0, .del 5)]

theorem changes_refine_example :
    ((exampleHistory.foldl (fun list step => step.2.run step.1 list) (some [5, 6])).getD []).toFinset = {6, 7} :=
  (changes_refine exampleHistory (some [5, 6]) (by decide)).2.2.trans (by decide)

end Changes

end ActiveBgp.Bird.SetAttribute

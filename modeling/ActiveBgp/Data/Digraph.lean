import ActiveBgp.Data.History
import Mathlib.Data.Finset.Card
import Mathlib.Data.Finset.Dedup
import Mathlib.Logic.Relation

namespace ActiveBgp.Data

variable {α : Type*}

def pairwise (path : List α) : List (α × α) := path.zip path.tail

@[simp] theorem pairwise_cons_cons (first second : α) (rest : List α) :
    pairwise (first :: second :: rest) = (first, second) :: pairwise (second :: rest) := rfl

theorem mem_tail_of_pairwise {path : List α} {edge : α × α} (member : edge ∈ pairwise path) :
    edge.1 ∈ path ∧ edge.2 ∈ path.tail :=
  List.of_mem_zip member

theorem mem_pairwise_snoc {path : List α} {last : α} {edge : α × α} (member : edge ∈ pairwise (path ++ [last])) :
    edge ∈ pairwise path ∨ edge.2 = last ∧ ∃ front, path = front ++ [edge.1] := by
  induction path with
  | nil => simp [pairwise] at member
  | cons first rest ih =>
      cases rest with
      | nil =>
          obtain rfl : edge = (first, last) := by simpa [pairwise] using member
          exact .inr ⟨rfl, [], rfl⟩
      | cons second rest =>
          rcases List.mem_cons.mp member with rfl | later
          · exact .inl (by simp)
          · rcases ih later with inside | ⟨same, front, shape⟩
            · exact .inl (by simp [inside])
            · exact .inr ⟨same, first :: front, by rw [shape, List.cons_append]⟩

/-- A path along edges of a relation reaches all of its elements from its first one. -/
theorem reaches_of_pairwise {relation : α → α → Prop} {first : α} {rest : List α}
    (along : ∀ edge ∈ pairwise (first :: rest), relation edge.1 edge.2) {x : α} (member : x ∈ first :: rest) :
    Relation.ReflTransGen relation first x := by
  induction rest generalizing first with
  | nil =>
      rw [List.mem_singleton.mp member]
  | cons second rest ih =>
      rcases List.mem_cons.mp member with rfl | later
      · exact .refl
      · have step := along (first, second) (by simp)
        exact .head step (ih (fun edge inside => along edge (by simp [inside])) later)

variable {ι : Type*}

/-- The path of the item has an edge that no path before it has. -/
def Novel (earlier : List (ι × List α)) (item : ι × List α) : Prop :=
  ∃ edge ∈ pairwise item.2, ∀ other ∈ earlier, edge ∉ pairwise other.2

/-- The path starts at `root`, goes on, and comes to no node twice. -/
def Rooted (root : α) (path : List α) : Prop := path.Nodup ∧ ∃ second rest, path = root :: second :: rest

section Rooted

variable {root : α} {path : List α} (rooted : Rooted root path)

include rooted

theorem Rooted.ne_nil : path ≠ [] := by
  obtain ⟨_, second, rest, rfl⟩ := rooted
  simp

theorem Rooted.ne_root {edge : α × α} (member : edge ∈ pairwise path) : edge.2 ≠ root := by
  obtain ⟨nodup, second, rest, rfl⟩ := rooted
  have inTail : edge.2 ∈ second :: rest := (mem_tail_of_pairwise member).2
  exact fun same => (List.nodup_cons.mp nodup).1 (same ▸ inTail)

theorem Rooted.mem_pairwise_root (next : α) : (root, next) ∈ pairwise path ↔ path[1]? = some next := by
  obtain ⟨nodup, second, rest, rfl⟩ := rooted
  have outside : root ∉ second :: rest := (List.nodup_cons.mp nodup).1
  have later : (root, next) ∉ pairwise (second :: rest) := fun member => outside (mem_tail_of_pairwise member).1
  simp [later, eq_comm]

theorem Rooted.reaches {relation : α → α → Prop} (along : ∀ edge ∈ pairwise path, relation edge.1 edge.2) {x : α}
    (member : x ∈ path) : Relation.ReflTransGen relation root x := by
  obtain ⟨_, second, rest, rfl⟩ := rooted
  exact reaches_of_pairwise along member

theorem Rooted.novel (key : ι) : Novel [] (key, path) := by
  obtain ⟨_, second, rest, rfl⟩ := rooted
  exact ⟨(root, second), by simp, by simp⟩

end Rooted

theorem nodup_of_novel {items : List (ι × List α)} (novel : Chronicle Novel items) :
    (items.map Prod.snd).Nodup := by
  induction items using List.reverseRecOn with
  | nil => exact List.nodup_nil
  | append_singleton earlier item ih =>
      obtain ⟨before, edge, inside, fresh⟩ := (chronicle_snoc item).mp novel
      rw [List.map_append]
      refine List.nodup_append.mpr ⟨ih before, List.nodup_singleton _, ?_⟩
      intro path member other single same
      subst same
      obtain ⟨old, inEarlier, rfl⟩ := List.mem_map.mp member
      exact fresh old inEarlier (by rw [List.mem_singleton.mp single]; exact inside)

variable [DecidableEq α]

def pathEdges (items : List (ι × List α)) : Finset (α × α) := (items.flatMap fun item => pairwise item.2).toFinset

@[simp] theorem mem_pathEdges {items : List (ι × List α)} {edge : α × α} :
    edge ∈ pathEdges items ↔ ∃ item ∈ items, edge ∈ pairwise item.2 := by
  simp [pathEdges]

theorem length_le_card_pathEdges {items : List (ι × List α)} (novel : Chronicle Novel items) :
    items.length ≤ (pathEdges items).card := by
  induction items using List.reverseRecOn with
  | nil => simp
  | append_singleton earlier item ih =>
      obtain ⟨before, edge, inside, fresh⟩ := (chronicle_snoc item).mp novel
      have outside : edge ∉ pathEdges earlier := by simpa using fresh
      have more : insert edge (pathEdges earlier) ⊆ pathEdges (earlier ++ [item]) := by
        intro other member
        rcases Finset.mem_insert.mp member with rfl | old
        · exact mem_pathEdges.mpr ⟨item, by simp, inside⟩
        · obtain ⟨owner, inEarlier, onPath⟩ := mem_pathEdges.mp old
          exact mem_pathEdges.mpr ⟨owner, by simp [inEarlier], onPath⟩
      have size := Finset.card_le_card more
      rw [Finset.card_insert_of_notMem outside] at size
      have known := ih before
      simp only [List.length_append, List.length_singleton]
      omega

structure DiGraph (α : Type*) [DecidableEq α] where
  nodes : Finset α
  edges : Finset (α × α)
  closed : ∀ edge ∈ edges, edge.1 ∈ nodes ∧ edge.2 ∈ nodes

namespace DiGraph

def empty : DiGraph α := ⟨∅, ∅, by simp⟩

def addNode (graph : DiGraph α) (node : α) : DiGraph α where
  nodes := insert node graph.nodes
  edges := graph.edges
  closed edge member := ⟨Finset.mem_insert_of_mem (graph.closed edge member).1,
    Finset.mem_insert_of_mem (graph.closed edge member).2⟩

def hasEdge (graph : DiGraph α) (edge : α × α) : Bool := edge ∈ graph.edges

def addEdge (graph : DiGraph α) (edge : α × α) : DiGraph α where
  nodes := insert edge.1 (insert edge.2 graph.nodes)
  edges := insert edge graph.edges
  closed other member := by
    rcases Finset.mem_insert.mp member with rfl | old
    · simp
    · simp [graph.closed other old]

def outDegree (graph : DiGraph α) (node : α) : Nat := (graph.edges.filter (·.1 = node)).card

theorem one_lt_outDegree (graph : DiGraph α) (node : α) :
    1 < graph.outDegree node ↔
      ∃ first second, (node, first) ∈ graph.edges ∧ (node, second) ∈ graph.edges ∧ first ≠ second := by
  rw [outDegree, Finset.one_lt_card]
  constructor
  · intro many
    obtain ⟨⟨_, first⟩, inFirst, ⟨_, second⟩, inSecond, different⟩ := many
    obtain ⟨firstEdge, rfl⟩ := Finset.mem_filter.mp inFirst
    obtain ⟨secondEdge, same⟩ := Finset.mem_filter.mp inSecond
    cases same
    exact ⟨first, second, firstEdge, secondEdge, fun same => different (by rw [same])⟩
  · intro two
    obtain ⟨first, second, firstEdge, secondEdge, different⟩ := two
    exact ⟨(node, first), by simp [firstEdge], (node, second), by simp [secondEdge], by simpa using different⟩

/-- More than one edge leaves the root if two paths go on differently. -/
theorem one_lt_outDegree_of_rooted {graph : DiGraph α} {root : α} {items : List (ι × List α)}
    (edges : graph.edges = pathEdges items) (rooted : ∀ item ∈ items, Rooted root item.2) :
    1 < graph.outDegree root ↔ ∃ first ∈ items, ∃ second ∈ items, first.2[1]? ≠ second.2[1]? := by
  have edge (next : α) : (root, next) ∈ graph.edges ↔ ∃ item ∈ items, item.2[1]? = some next := by
    rw [edges, mem_pathEdges]
    exact exists_congr fun item => and_congr_right fun member => (rooted item member).mem_pairwise_root next
  rw [one_lt_outDegree]
  constructor
  · intro two
    obtain ⟨left, right, leftEdge, rightEdge, different⟩ := two
    obtain ⟨first, inFirst, firstNext⟩ := (edge left).mp leftEdge
    obtain ⟨second, inSecond, secondNext⟩ := (edge right).mp rightEdge
    exact ⟨first, inFirst, second, inSecond, by simpa [firstNext, secondNext] using different⟩
  · intro two
    obtain ⟨first, inFirst, second, inSecond, different⟩ := two
    obtain ⟨_, left, leftRest, firstPath⟩ := rooted first inFirst
    obtain ⟨_, right, rightRest, secondPath⟩ := rooted second inSecond
    refine ⟨left, right, (edge left).mpr ⟨first, inFirst, by simp [firstPath]⟩,
      (edge right).mpr ⟨second, inSecond, by simp [secondPath]⟩, ?_⟩
    simpa [firstPath, secondPath] using different

end DiGraph

end ActiveBgp.Data

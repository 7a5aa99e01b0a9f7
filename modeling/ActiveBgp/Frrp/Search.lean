import ActiveBgp.Frrp.Measure

namespace ActiveBgp.Frrp

open ActiveBgp.Python ActiveBgp.Data ActiveBgp.Data.Exploration

def searchRules (src : Asn) : Rules Asn where
  fixed asn := asn = src ∨ asn = 3450
  conflict poisons := 12083 ∈ poisons ∧ 3356 ∈ poisons
  valid path := Rooted src path

structure Coherent (src : Asn) (state : RunState) : Prop where
  edges : state.graph.edges = pathEdges (recordings state.trace)
  nodes : ∀ node ∈ state.graph.nodes, node = src ∨ ∃ recording ∈ recordings state.trace, node ∈ recording.2
  cached : state.poisonCache.Holds ((recordings state.trace).map Prod.fst)
  recorded : state.frrpRun.recorded = recordings state.trace
  original : ∀ path, (∅, path) ∈ recordings state.trace →
    ∃ annotated, state.frrpRun.originalPath = some annotated ∧ annotated.ases = path
  made : ∀ path ∈ state.frrpRun.recordedPaths, path.identity < state.objects
  announced : state.announcements = none :: (tries state.trace).map some

/-- The state after the opening announcement. -/
def RunState.opened (src : Asn) : RunState where
  graph := DiGraph.empty.addNode src
  poisonCache := .empty
  frrpRun := { srcAsn := src }
  frrpLog := []
  objects := 0
  submissions := 0
  announcements := [none]
  actions := [.announced none]
  trace := []

theorem coherent_opened (src : Asn) : Coherent src (.opened src) where
  edges := rfl
  nodes node member := .inl (by simpa [RunState.opened, DiGraph.addNode, DiGraph.empty] using member)
  cached := rfl
  recorded := rfl
  original := by simp [RunState.opened]
  made := by simp [RunState.opened, FRRPRun.recordedPaths]
  announced := rfl

variable {services : Services} {src : Asn} {state : RunState} {poisons : Finset Asn}

section Edges

theorem addEdges_cons_old {edge : Asn × Asn} {graph : DiGraph Asn} (old : edge ∈ graph.edges) (rest : List (Asn × Asn)) :
    addEdges (edge :: rest) graph = addEdges rest graph := by
  rw [addEdges, if_pos (by simpa [DiGraph.hasEdge] using old)]

theorem addEdges_cons_new {edge : Asn × Asn} {graph : DiGraph Asn} (new : edge ∉ graph.edges) (rest : List (Asn × Asn)) :
    addEdges (edge :: rest) graph = ((addEdges rest (graph.addEdge edge)).1, true) := by
  rw [addEdges, if_neg (by simpa [DiGraph.hasEdge] using new)]

theorem addEdges_edges (edges : List (Asn × Asn)) (graph : DiGraph Asn) :
    (addEdges edges graph).1.edges = graph.edges ∪ edges.toFinset := by
  induction edges generalizing graph with
  | nil => simp [addEdges]
  | cons edge rest ih =>
      by_cases old : edge ∈ graph.edges
      · rw [addEdges_cons_old old, ih, List.toFinset_cons, Finset.union_insert,
          Finset.insert_eq_self.mpr (by simp [old])]
      · rw [addEdges_cons_new old, ih, List.toFinset_cons, DiGraph.addEdge, Finset.insert_union, Finset.union_insert]

theorem addEdges_nodes {edges : List (Asn × Asn)} {graph : DiGraph Asn} {node : Asn}
    (member : node ∈ (addEdges edges graph).1.nodes) :
    node ∈ graph.nodes ∨ ∃ edge ∈ edges, node = edge.1 ∨ node = edge.2 := by
  induction edges generalizing graph with
  | nil => exact .inl member
  | cons edge rest ih =>
      by_cases old : edge ∈ graph.edges
      · rw [addEdges_cons_old old] at member
        exact (ih member).imp id fun ⟨other, later, ends⟩ => ⟨other, by simp [later], ends⟩
      · rw [addEdges_cons_new old] at member
        rcases ih member with inside | ⟨other, later, ends⟩
        · simp only [DiGraph.addEdge, Finset.mem_insert] at inside
          rcases inside with left | right | known
          · exact .inr ⟨edge, by simp, .inl left⟩
          · exact .inr ⟨edge, by simp, .inr right⟩
          · exact .inl known
        · exact .inr ⟨other, by simp [later], ends⟩

theorem addEdges_old {edges : List (Asn × Asn)} {graph : DiGraph Asn} (known : (addEdges edges graph).2 = false) :
    (addEdges edges graph).1 = graph := by
  induction edges generalizing graph with
  | nil => rfl
  | cons edge rest ih =>
      by_cases old : edge ∈ graph.edges
      · rw [addEdges_cons_old old] at known ⊢
        exact ih known
      · rw [addEdges_cons_new old] at known
        contradiction

theorem addEdges_new (edges : List (Asn × Asn)) (graph : DiGraph Asn) :
    (addEdges edges graph).2 = true ↔ ∃ edge ∈ edges, edge ∉ graph.edges := by
  induction edges generalizing graph with
  | nil => simp [addEdges]
  | cons edge rest ih =>
      by_cases old : edge ∈ graph.edges
      · rw [addEdges_cons_old old, ih]
        simp [old]
      · rw [addEdges_cons_new old]
        exact iff_of_true rfl ⟨edge, by simp, old⟩

end Edges

namespace Coherent

theorem announce (coherent : Coherent src state) (poisons : Finset Asn) (asn : Asn) :
    Coherent src { state with
      announcements := state.announcements ++ [some (insert asn poisons)]
      actions := state.actions ++ [.announced (some (insert asn poisons))]
      trace := state.trace ++ [.tried poisons asn] } where
  edges := by simpa using coherent.edges
  nodes := by simpa using coherent.nodes
  cached := by simpa using coherent.cached
  recorded := by simpa using coherent.recorded
  original := by simpa using coherent.original
  made := coherent.made
  announced := by simp [coherent.announced]

theorem note (coherent : Coherent src state) {moment : Moment Asn} (visit : moment.visit = none)
    (recording : moment.recording = none) : Coherent src { state with trace := state.trace ++ [moment] } where
  edges := by simpa [recording] using coherent.edges
  nodes := by simpa [recording] using coherent.nodes
  cached := by simpa [recording] using coherent.cached
  recorded := by simpa [recording] using coherent.recorded
  original := by simpa [recording] using coherent.original
  made := coherent.made
  announced := by simpa [visit] using coherent.announced

theorem submit (coherent : Coherent src state) (submissions : Nat) (actions : List Action) :
    Coherent src { state with submissions := submissions, actions := actions } :=
  ⟨coherent.edges, coherent.nodes, coherent.cached, coherent.recorded, coherent.original, coherent.made,
    coherent.announced⟩

theorem log (coherent : Coherent src state) (frrpLog : List FrrpEntry) :
    Coherent src { state with frrpLog := frrpLog } :=
  ⟨coherent.edges, coherent.nodes, coherent.cached, coherent.recorded, coherent.original, coherent.made,
    coherent.announced⟩

theorem enter (coherent : Coherent src state) (caller callee : Finset Asn) : Coherent src (state.enter caller callee) :=
  ⟨coherent.edges, coherent.nodes, coherent.cached, coherent.recorded, coherent.original, coherent.made,
    coherent.announced⟩

theorem lose (coherent : Coherent src state) (measurementId : Int) (path : TraceroutePath) :
    Coherent src (state.lose src measurementId poisons path) :=
  ⟨coherent.edges, coherent.nodes, coherent.cached, coherent.recorded, coherent.original,
    fun path member => Nat.lt_succ_of_lt (coherent.made path member), coherent.announced⟩

theorem record (coherent : Coherent src state) {path : TraceroutePath}
    (timed : path.rtts.length = path.asns.items.length) (unrecorded : ¬ Recorded state.trace poisons)
    {keep : AnnotatedASPath → FRRPRun → FRRPRun} (measurementId : Int)
    (kept : (keep (.annotate state.objects poisons measurementId path) state.frrpRun).recordedPaths =
      state.frrpRun.recordedPaths ++ [.annotate state.objects poisons measurementId path])
    (original : ∀ items, (∅, items) ∈ recordings state.trace ++ [(poisons, path.asns.items)] → ∃ annotated,
      (keep (.annotate state.objects poisons measurementId path) state.frrpRun).originalPath = some annotated ∧
        annotated.ases = items) :
    Coherent src (({ state with graph := (addEdges (pairwise path.asns.items) state.graph).1 } : RunState).record
      src keep measurementId poisons path) := by
  have recordings : recordings (state.trace ++ [.recorded poisons path.asns.items]) =
      recordings state.trace ++ [(poisons, path.asns.items)] := by simp
  obtain ⟨identity, given, ases⟩ := AnnotatedASPath.annotate_spec state.objects poisons measurementId timed
  constructor
  case edges =>
    simp only [RunState.record, addEdges_edges, coherent.edges, recordings]
    ext edge
    simp [or_and_right, exists_or]
  case nodes =>
    intro node member
    simp only [RunState.record] at member ⊢
    rw [recordings]
    rcases addEdges_nodes member with old | ⟨edge, inside, ends⟩
    · refine (coherent.nodes node old).imp id fun ⟨recording, earlier, onPath⟩ => ⟨recording, by simp [earlier], onPath⟩
    · obtain ⟨left, right⟩ := mem_tail_of_pairwise inside
      refine .inr ⟨(poisons, path.asns.items), by simp, ?_⟩
      rcases ends with rfl | rfl
      · exact left
      · exact List.mem_of_mem_tail right
  case cached =>
    simp only [RunState.record, recordings, List.map_append, List.map_cons, List.map_nil]
    exact coherent.cached.add unrecorded _ _
  case recorded =>
    simp only [RunState.record, recordings, FRRPRun.recorded, kept, List.map_append, List.map_cons, List.map_nil,
      given, ases]
    rw [← coherent.recorded]
    rfl
  case original => simpa only [RunState.record, recordings] using original
  case made =>
    simp only [RunState.record, kept]
    intro other member
    rcases List.mem_append.mp member with old | last
    · exact Nat.lt_succ_of_lt (coherent.made other old)
    · rw [List.mem_singleton.mp last, identity]
      exact Nat.lt_succ_self _
  case announced => simpa [RunState.record] using coherent.announced

end Coherent

section Steps

variable {number : Nat} {hops : List Hop} {measurementId : Int}

theorem addPath_eq : addPath services src number hops measurementId poisons state =
    match getTraceroutePath (services.dig number) src hops with
    | .error error => .error error state
    | .ok path =>
        if path.success then
          .ok (some ((addEdges (pairwise path.asns.items) state.graph).2, path))
            { state with graph := (addEdges (pairwise path.asns.items) state.graph).1 }
        else .ok none (state.lose src measurementId poisons path) := by
  unfold addPath
  rw [Effect.bind_eq]
  cases getTraceroutePath (services.dig number) src hops with
  | error error => rfl
  | ok path =>
      simp only [Effect.ofExcept_ok]
      split <;> rfl

/-- The graph changes only if the path is new; then the path is recorded next. -/
theorem addPath_cases (coherent : Coherent src state) (services : Services) (number : Nat) (hops : List Hop)
    (measurementId : Int) (poisons : Finset Asn) :
    (∃ error, addPath services src number hops measurementId poisons state = .error error state) ∨
    (∃ path, addPath services src number hops measurementId poisons state =
      .ok none (state.lose src measurementId poisons path)) ∨
    (∃ path, addPath services src number hops measurementId poisons state = .ok (some (false, path)) state) ∨
    ∃ path, addPath services src number hops measurementId poisons state = .ok (some (true, path))
        { state with graph := (addEdges (pairwise path.asns.items) state.graph).1 } ∧
      path.rtts.length = path.asns.items.length ∧ (searchRules src).valid path.asns.items ∧
      Novel (recordings state.trace) (poisons, path.asns.items) := by
  rw [addPath_eq]
  cases found : getTraceroutePath (services.dig number) src hops with
  | error error => exact .inl ⟨error, rfl⟩
  | ok path =>
      obtain ⟨timed, atSource⟩ := getTraceroutePath_spec found
      simp only
      split
      · rename_i success
        cases new : (addEdges (pairwise path.asns.items) state.graph).2 with
        | false => exact .inr (.inr (.inl ⟨path, by rw [addEdges_old new]⟩))
        | true =>
            obtain ⟨edge, inside, absent⟩ := (addEdges_new _ _).mp new
            refine .inr (.inr (.inr ⟨path, rfl, timed, ⟨path.asns.distinct, ?_⟩, edge, inside, ?_⟩))
            · have head := atSource success
              cases items : path.asns.items with
              | nil => simp [items] at head
              | cons first others =>
                  obtain rfl : first = src := by simpa [items] using head
                  cases others with
                  | nil => simp [items, pairwise] at inside
                  | cons second rest => exact ⟨second, rest, rfl⟩
            · intro other earlier onPath
              exact absent (by rw [coherent.edges]; exact mem_pathEdges.mpr ⟨other, earlier, onPath⟩)
      · exact .inr (.inl ⟨path, rfl⟩)

theorem nextTraceroute_eq : nextTraceroute services state =
    match traceroute services state.submissions with
    | .error error => .error error { state with
        submissions := state.submissions + 1
        actions := state.actions ++ [.submitted state.submissions] }
    | .ok answer => .ok (state.submissions, answer) { state with
        submissions := state.submissions + 1
        actions := state.actions ++ [.submitted state.submissions] } := by
  simp only [nextTraceroute, Effect.bind_eq, Effect.get_apply, Effect.set_apply]
  cases traceroute services state.submissions <;> rfl

theorem announce_eq (currentPathAsn : Asn) : announce services poisons currentPathAsn state =
    Effect.ofExcept (services.announce state.announcements.length) { state with
      announcements := state.announcements ++ [some (insert currentPathAsn poisons)]
      actions := state.actions ++ [.announced (some (insert currentPathAsn poisons))]
      trace := state.trace ++ [.tried poisons currentPathAsn] } := by
  simp only [announce, Effect.bind_eq, Effect.get_apply, Effect.set_apply]

def searchSetting (src : Asn) : Setting Asn RunState := ⟨searchRules src, RunState.trace, Coherent src⟩

theorem measurePoisons_turns (coherent : Coherent src state) {asn : Asn}
    (tried : ¬ Skipped (searchRules src) state.trace poisons asn) :
    (searchSetting src).Turns poisons asn state.trace (measurePoisons services src poisons asn state) := by
  have unrecorded : ¬ Recorded state.trace (insert asn poisons) := fun known => tried (.inr (.inr known))
  have announced := coherent.announce poisons asn
  unfold measurePoisons
  rw [Effect.bind_eq, announce_eq]
  cases services.announce state.announcements.length with
  | error error => exact ⟨announced, tried, rfl⟩
  | ok _ =>
  have submitted := announced.submit (state.submissions + 1)
    (state.actions ++ [.announced (some (insert asn poisons))] ++ [.submitted state.submissions])
  simp only [Effect.ofExcept_ok]
  rw [Effect.bind_eq, nextTraceroute_eq]
  cases traceroute services state.submissions with
  | error error => exact ⟨submitted, tried, rfl⟩
  | ok answer =>
  cases answer with
  | notSubmitted => exact ⟨submitted.note rfl rfl, tried, rfl⟩
  | notCovered => exact ⟨submitted.note rfl rfl, tried, rfl⟩
  | notFinished => exact ⟨submitted.note rfl rfl, .inr ⟨tried, rfl⟩⟩
  | notParsed => exact ⟨submitted.note rfl rfl, .inr ⟨tried, rfl⟩⟩
  | result measurementId hops =>
      simp only
      rw [Effect.bind_eq]
      obtain ⟨error, done⟩ | ⟨path, done⟩ | ⟨path, done⟩ | ⟨path, done, timed, valid, novel⟩ :=
        addPath_cases submitted services state.submissions hops measurementId (insert asn poisons)
      · rw [done]
        exact ⟨submitted, tried, rfl⟩
      · rw [done]
        exact ⟨(submitted.lose measurementId path).note rfl rfl, .inr ⟨tried, rfl⟩⟩
      · rw [done]
        exact ⟨submitted.note rfl rfl, .inr ⟨tried, rfl⟩⟩
      · rw [done]
        have later (other : AnnotatedASPath) (member : other ∈ state.frrpRun.recordedPaths) :
            other.identity < (AnnotatedASPath.annotate state.objects (insert asn poisons) measurementId path).identity := by
          rw [(AnnotatedASPath.annotate_spec _ _ _ timed).1]
          exact coherent.made other member
        have kept := FRRPRun.recordedPaths_addDiscoveredPath later
        refine ⟨(submitted.record timed (by simpa [Recorded] using unrecorded) measurementId kept ?_).enter _ _, tried,
          rfl, valid, by simpa using novel⟩
        -- The new path has poisons, so it is not an original path.
        intro items member
        have old : (∅, items) ∈ recordings state.trace := by
          simpa [(Finset.insert_ne_empty asn poisons).symm] using member
        simpa using coherent.original items old

/-- A round does nothing for an AS that is skipped, and measures the poisons otherwise. -/
theorem poisonTurn_cases (coherent : Coherent src state) (services : Services) (poisons : Finset Asn) (asn : Asn) :
    (Skipped (searchRules src) state.trace poisons asn ∧
      poisonTurn services src poisons asn state = .ok .moveOn state) ∨
    (¬ Skipped (searchRules src) state.trace poisons asn ∧
      poisonTurn services src poisons asn state = measurePoisons services src poisons asn state) := by
  unfold poisonTurn
  rw [Effect.bind_eq]
  simp only [Effect.get_apply]
  split
  · rename_i fixed
    exact .inl ⟨.inl fixed, rfl⟩
  split
  · rename_i _ conflict
    exact .inl ⟨.inr (.inl conflict), rfl⟩
  split
  · rename_i _ _ existing
    exact .inl ⟨.inr (.inr ((coherent.cached.getPath _).mp existing)), rfl⟩
  rename_i free allowed fresh
  refine .inr ⟨fun skipped => ?_, rfl⟩
  rcases skipped with fixed | conflict | known
  · exact free fixed
  · exact allowed conflict
  · exact fresh ((coherent.cached.getPath _).mpr known)

theorem poisonTurn_follows (services : Services) (src : Asn) : (searchSetting src).Follows (poisonTurn services src) := by
  intro poisons asn state coherent _
  rcases poisonTurn_cases coherent services poisons asn with ⟨skipped, done⟩ | ⟨tried, done⟩
  · rw [done]
    exact ⟨coherent, .inl ⟨skipped, rfl⟩⟩
  · rw [done]
    exact measurePoisons_turns coherent tried

end Steps

section Search

theorem measureBody_loops (services : Services) (src : Asn) :
    (searchSetting src).Loops (poisonTurn services src) (measureBody services src) none := by
  intro recurse path poisons valid
  cases path with
  | nil => exact absurd rfl valid.ne_nil
  | cons first rest => rfl

theorem measureSingleSource_unroll (services : Services) (src : Asn) (limit : Nat) :
    measureSingleSource services src limit = unroll (measureBody services src) .recursionError (limit + 1) := by
  induction limit with
  | zero => rfl
  | succ limit ih =>
      rw [measureSingleSource, ih]
      rfl

/-- A run of the search of `items` keeps everything coherent and is an exploration. -/
def Searches (src : Asn) (poisons : Finset Asn) (items : List Asn) (before : Trace Asn) {α : Type}
    (result : EStateM.Result PyError RunState α) : Prop :=
  Coherent src (final result) ∧
    Explores (searchRules src) poisons items before (returned result) (final result).trace

theorem searches_of_setting {items : List Asn} {before : Trace Asn} {α : Type}
    {result : EStateM.Result PyError RunState α} (searches : (searchSetting src).Searches poisons items before result) :
    Searches src poisons items before result := by
  cases result <;> exact searches

end Search

end ActiveBgp.Frrp

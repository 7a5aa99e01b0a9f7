import ActiveBgp.Frrp.Search
import ActiveBgp.Data.Occurrences

namespace ActiveBgp.Frrp

open ActiveBgp.Python ActiveBgp.Data

section Observations

variable (average : List ℚ → ℚ) (getAsn : Nat → Text → Except PyError (Option Asn))

/-- The first address and the average time of a hop, if it answered. -/
def Hop.answer (hop : Hop) : Option (Text × ℚ) :=
  match validReplies (hop.result.getD []) with
  | [] => none
  | (ip, rtt) :: others => some (ip, average (rtt :: others.map Prod.snd))

/-- An origin of 0 counts as none. -/
def resolvedOrigin (position : Nat) (ip : Text) : Option Asn :=
  match getAsn position ip with
  | .ok (some asn) => if asn = 0 then none else some asn
  | _ => none

def observed (position : Nat) (hops : List (Text × ℚ)) : List (Asn × ℚ) :=
  (hops.zipIdx position).filterMap fun hop => (resolvedOrigin getAsn hop.2 hop.1.1).map fun asn => (asn, hop.1.2)

def observations (result : List Hop) : List (Asn × ℚ) := observed getAsn 0 (result.filterMap (Hop.answer average))

/-- Every hop has a result, and the origin of every address is looked up without an exception. -/
structure Complete (result : List Hop) : Prop where
  answered : ∀ hop ∈ result, hop.result.isSome = true
  found : ∀ position hop, (result.filterMap (Hop.answer average))[position]? = some hop →
    ∃ answer, getAsn position hop.1 = .ok answer

end Observations

section Path

variable {average : List ℚ → ℚ} {getAsn : Nat → Text → Except PyError (Option Asn)} {src : Asn}

theorem readHops_eq {result : List Hop} {hops : List (Text × ℚ)} {success : Bool}
    (read : readHops average result = .ok (hops, success)) : hops = result.filterMap (Hop.answer average) := by
  induction result generalizing hops success with
  | nil =>
      cases read
      rfl
  | cons hop rest ih =>
      cases replies : hop.result with
      | none => simp [readHops, replies] at read
      | some list =>
      cases later : readHops average rest with
      | error error => simp [readHops, replies, later, except_bind_error] at read
      | ok found =>
          simp only [readHops, replies, later, except_bind_ok] at read
          have same := ih later
          cases valid : validReplies list with
          | nil =>
              simp only [valid] at read
              cases read
              simp [Hop.answer, replies, valid, same]
          | cons reply others =>
              simp only [valid] at read
              cases read
              simp [Hop.answer, replies, valid, same]

theorem readHops_returns {result : List Hop} (answered : ∀ hop ∈ result, hop.result.isSome = true) :
    ∃ read, readHops average result = .ok read := by
  induction result with
  | nil => exact ⟨_, rfl⟩
  | cons hop rest ih =>
      obtain ⟨now, later⟩ := List.forall_mem_cons.mp answered
      obtain ⟨list, replies⟩ := Option.isSome_iff_exists.mp now
      obtain ⟨found, read⟩ := ih later
      simp only [readHops, replies, read, except_bind_ok]
      cases validReplies list with
      | nil => exact ⟨_, rfl⟩
      | cons reply others => exact ⟨_, rfl⟩

theorem observed_none {position : Nat} {ip : Text} (none : resolvedOrigin getAsn position ip = none) (rtt : ℚ)
    (rest : List (Text × ℚ)) : observed getAsn position ((ip, rtt) :: rest) = observed getAsn (position + 1) rest := by
  simp [observed, none]

theorem observed_some {position : Nat} {ip : Text} {asn : Asn} (some : resolvedOrigin getAsn position ip = some asn) (rtt : ℚ)
    (rest : List (Text × ℚ)) :
    observed getAsn position ((ip, rtt) :: rest) = (asn, rtt) :: observed getAsn (position + 1) rest := by
  simp [observed, some]

theorem resolveHops_eq {position : Nat} {hops : List (Text × ℚ)} {hopAsns : IndexedSet Asn} {hopRtts : Dict Asn ℚ}
    {pair : IndexedSet Asn × Dict Asn ℚ} (resolved : resolveHops getAsn position hops hopAsns hopRtts = .ok pair) :
    pair = (((observed getAsn position hops).map Prod.fst).foldl IndexedSet.add hopAsns,
      (observed getAsn position hops).foldl (fun rtts entry => rtts.set entry.1 entry.2) hopRtts) := by
  induction hops generalizing position hopAsns hopRtts with
  | nil =>
      cases resolved
      rfl
  | cons hop rest ih =>
      obtain ⟨ip, rtt⟩ := hop
      cases found : getAsn position ip with
      | error error => simp [resolveHops, found, except_bind_error] at resolved
      | ok answer =>
          cases answer with
          | none =>
              simp only [resolveHops, found, except_bind_ok] at resolved
              rw [observed_none (by simp [resolvedOrigin, found]), ih resolved]
          | some asn =>
              simp only [resolveHops, found, except_bind_ok] at resolved
              split at resolved
              · rename_i zero
                rw [observed_none (by simp [resolvedOrigin, found, zero]), ih resolved]
              · rename_i nonzero
                have some : resolvedOrigin getAsn position ip = .some asn := by simp [resolvedOrigin, found, nonzero]
                rw [observed_some some, ih resolved]
                rfl

theorem resolveHops_returns {position : Nat} {hops : List (Text × ℚ)}
    (found : ∀ index hop, hops[index]? = some hop → ∃ answer, getAsn (position + index) hop.1 = .ok answer)
    (hopAsns : IndexedSet Asn) (hopRtts : Dict Asn ℚ) :
    ∃ pair, resolveHops getAsn position hops hopAsns hopRtts = .ok pair := by
  induction hops generalizing position hopAsns hopRtts with
  | nil => exact ⟨_, rfl⟩
  | cons hop rest ih =>
      obtain ⟨ip, rtt⟩ := hop
      obtain ⟨answer, now⟩ := found 0 (ip, rtt) rfl
      have later (index : Nat) (hop : Text × ℚ) (inside : rest[index]? = some hop) :
          ∃ answer, getAsn (position + 1 + index) hop.1 = .ok answer := by
        have shifted := found (index + 1) hop (by simpa using inside)
        rwa [Nat.add_right_comm, Nat.add_assoc]
      simp only [Nat.add_zero] at now
      simp only [resolveHops, now, except_bind_ok]
      cases answer with
      | none => exact ih later _ _
      | some asn =>
          simp only
          split
          · exact ih later _ _
          · exact ih later _ _

/-- The ASes are added after the source, with the times that they have. -/
theorem reviseHops_eq {hopRtts : Dict Asn ℚ} {items : List Asn} {revisedAsns : IndexedSet Asn} {revisedRtts : Dict Asn ℚ}
    {pair : IndexedSet Asn × Dict Asn ℚ} (revised : reviseHops hopRtts items revisedAsns revisedRtts = .ok pair) :
    pair.1 = items.foldl IndexedSet.add revisedAsns ∧ ∀ asn, pair.2.get? asn =
      if asn ∈ items then hopRtts.get? asn else revisedRtts.get? asn := by
  induction items generalizing revisedAsns revisedRtts with
  | nil =>
      cases revised
      exact ⟨rfl, fun asn => by simp⟩
  | cons first rest ih =>
      cases found : hopRtts.get? first with
      | none => simp [reviseHops, found, orRaise, except_bind_error] at revised
      | some rtt =>
          simp only [reviseHops, found, orRaise, except_bind_ok] at revised
          obtain ⟨asns, times⟩ := ih revised
          refine ⟨asns, fun asn => ?_⟩
          rw [times, Dict.get?_set]
          by_cases later : asn ∈ rest
          · simp [later]
          · by_cases same : first = asn
            · simp [same, ← same ▸ found]
            · simp [later, same, Ne.symm same]

/-- A time among the revised ones is the last one of its AS, or that of the source. -/
theorem revised_time {entries : List (Asn × ℚ)} {pair : IndexedSet Asn × Dict Asn ℚ}
    (revised : reviseHops (lasts entries) (firsts (entries.map Prod.fst)).items (IndexedSet.empty.add src)
      (Dict.empty.set src 0) = .ok pair) {asn : Asn} {rtt : ℚ} (inDict : pair.2.get? asn = some rtt) :
    LastEntry entries asn rtt ∨ asn = src ∧ asn ∉ entries.map Prod.fst ∧ rtt = 0 := by
  rw [(reviseHops_eq revised).2] at inDict
  split at inDict
  · exact .inl (get?_lasts.mp inDict)
  · rename_i unseen
    rw [Dict.get?_set] at inDict
    split at inDict
    · rename_i same
      exact .inr ⟨same.symm, by simpa using unseen, by simpa [eq_comm] using inDict⟩
    · simp at inDict

theorem reviseHops_returns {hopRtts : Dict Asn ℚ} {items : List Asn} (known : ∀ asn ∈ items, asn ∈ hopRtts.keys)
    (revisedAsns : IndexedSet Asn) (revisedRtts : Dict Asn ℚ) :
    ∃ pair, reviseHops hopRtts items revisedAsns revisedRtts = .ok pair := by
  induction items generalizing revisedAsns revisedRtts with
  | nil => exact ⟨_, rfl⟩
  | cons first rest ih =>
      obtain ⟨now, later⟩ := List.forall_mem_cons.mp known
      obtain ⟨rtt, found⟩ := Option.isSome_iff_exists.mp ((Dict.mem_keys_iff _ _).mp now)
      simp only [reviseHops, found, orRaise, except_bind_ok]
      exact ih later _ _

theorem tracePath_returns {result : List Hop} (complete : Complete average getAsn result) :
    ∃ path, tracePath average getAsn src result = .ok path := by
  obtain ⟨⟨hops, success⟩, read⟩ := @readHops_returns average _ complete.answered
  obtain rfl := readHops_eq read
  obtain ⟨⟨hopAsns, hopRtts⟩, resolved⟩ := @resolveHops_returns getAsn 0 _
    (fun index hop inside => by simpa using complete.found index hop inside) .empty .empty
  have none : (Dict.empty : Dict Asn ℚ).keySet = IndexedSet.empty := rfl
  have keys : hopRtts.keySet = hopAsns := resolveHops_keys none resolved
  simp only [tracePath, read, resolved, except_bind_ok]
  split
  · exact ⟨_, rfl⟩
  · split
    · exact ⟨_, rfl⟩
    · have known : ∀ asn ∈ hopAsns.items, asn ∈ hopRtts.keys := fun asn member => by rwa [← keys] at member
      obtain ⟨pair, revised⟩ := reviseHops_returns known (IndexedSet.empty.add src) (Dict.empty.set src 0)
      rw [revised]
      exact ⟨_, rfl⟩

/-- The path of the source and the observed ASes, in the order of their first occurrences. -/
theorem tracePath_asns {result : List Hop} {path : TracedPath} (found : tracePath average getAsn src result = .ok path) :
    path.asns = (if observations average getAsn result = [] then .empty
      else firsts (src :: (observations average getAsn result).map Prod.fst)) ∧
    ∀ asn rtt, path.rtts.get? asn = some rtt → LastEntry (observations average getAsn result) asn rtt ∨
      asn = src ∧ asn ∉ (observations average getAsn result).map Prod.fst ∧ rtt = 0 := by
  unfold tracePath at found
  cases read : readHops average result with
  | error error => simp [read, except_bind_error] at found
  | ok hops =>
  obtain ⟨hops, success⟩ := hops
  cases resolved : resolveHops getAsn 0 hops .empty .empty with
  | error error => simp [read, resolved, except_bind_ok, except_bind_error] at found
  | ok pair =>
  obtain rfl := readHops_eq read
  have filled : pair = (firsts ((observations average getAsn result).map Prod.fst),
    lasts (observations average getAsn result)) := resolveHops_eq resolved
  simp only [read, resolved, filled, except_bind_ok] at found
  cases seen : observations average getAsn result with
  | nil =>
      rw [seen] at found
      cases found
      exact ⟨rfl, fun asn rtt inDict => .inl (get?_lasts.mp inDict)⟩
  | cons entry rest =>
      rw [seen, List.map_cons] at found
      have head := head?_firsts entry.1 (rest.map Prod.fst)
      rw [if_neg (List.cons_ne_nil _ _)]
      cases items : (firsts (entry.1 :: rest.map Prod.fst)).items with
      | nil => simp [items] at head
      | cons first others =>
          obtain rfl : first = entry.1 := by simpa [items] using head
          simp only [items] at found
          split at found
          · rename_i atSource
            cases found
            refine ⟨?_, fun asn rtt inDict => .inl (get?_lasts.mp inDict)⟩
            rw [List.map_cons, ← atSource, firsts_cons_cons]
          · cases revised : reviseHops (lasts (entry :: rest)) (entry.1 :: others) (IndexedSet.empty.add src)
                (Dict.empty.set src 0) with
            | error error => simp [revised] at found
            | ok pair =>
                simp only [revised, except_bind_ok] at found
                cases found
                rw [← items] at revised
                exact ⟨(reviseHops_eq revised).1.trans (foldl_add_firsts _ _), fun asn rtt => revised_time revised⟩

end Path

def mean (rtts : List ℚ) : ℚ := rtts.sum / rtts.length

def lookup (dig : Nat → Text → Except PyError Text) (position : Nat) : Text → Except PyError (Option Asn) :=
  getAsnFromIp (dig position)

/-- The observations of `get_traceroute_path`. -/
def tracerouteObservations (dig : Nat → Text → Except PyError Text) (result : List Hop) : List (Asn × ℚ) :=
  observations mean (lookup dig) result

theorem getTraceroutePath_ok {dig : Nat → Text → Except PyError Text} {src : Asn} {result : List Hop}
    {path : TraceroutePath} (found : getTraceroutePath dig src result = .ok path) :
    ∃ traced, tracePath mean (lookup dig) src result = .ok traced ∧ path.asns = traced.asns ∧
      path.rtts = traced.rtts.values ∧ path.success = traced.success := by
  unfold getTraceroutePath at found
  cases traced : tracePath mean (lookup dig) src result with
  | error error =>
      change (tracePath mean (lookup dig) src result >>= _) = _ at found
      simp [traced] at found
  | ok trace =>
      change (tracePath mean (lookup dig) src result >>= _) = _ at found
      rw [traced, except_bind_ok] at found
      cases found
      exact ⟨trace, rfl, rfl, rfl, rfl⟩

/-- The path has distinct ASes, the source first, and for each the time of its last observation;
a source that is not observed has the time 0. -/
theorem traceroutePath_aligned {dig : Nat → Text → Except PyError Text} {result : List Hop} (src : Asn)
    (complete : Complete mean (lookup dig) result) :
    ∃ path, getTraceroutePath dig src result = .ok path ∧ path.asns.items.Nodup ∧
      (path.asns.items ≠ [] → path.asns.items.head? = some src) ∧ path.rtts.length = path.asns.items.length ∧
      ∀ (index : Nat) (asn : Asn) (rtt : ℚ), path.asns.items[index]? = some asn → path.rtts[index]? = some rtt →
        LastEntry (tracerouteObservations dig result) asn rtt ∨
          asn = src ∧ asn ∉ (tracerouteObservations dig result).map Prod.fst ∧ rtt = 0 := by
  obtain ⟨trace, traced⟩ := @tracePath_returns mean (lookup dig) src result complete
  have found : getTraceroutePath dig src result = .ok ⟨trace.asns, trace.numHops, trace.rtts.values, trace.success⟩ := by
    change (tracePath mean (lookup dig) src result >>= _) = _
    rw [traced]
    rfl
  obtain ⟨asns, times⟩ := tracePath_asns traced
  have keys : trace.rtts.keys = trace.asns.items := congrArg IndexedSet.items (tracePath_spec traced).1
  refine ⟨_, found, trace.asns.distinct, fun some => ?_, ?_, fun index asn rtt atAsn atRtt => ?_⟩
  · rw [asns] at some ⊢
    split at some
    · exact absurd rfl some
    · rename_i seen
      rw [if_neg seen]
      exact head?_firsts _ _
  · simp only [← keys, Dict.values, Dict.keys, List.length_map]
  · simp only [← keys, Dict.keys, Dict.values, List.getElem?_map, Option.map_eq_some_iff] at atAsn atRtt
    obtain ⟨entry, atIndex, rfl⟩ := atAsn
    obtain ⟨other, same, rfl⟩ := atRtt
    obtain rfl : entry = other := by simpa [atIndex] using same
    exact times _ _ (Dict.get?_of_mem_entries (List.mem_of_getElem? atIndex))

/-- The ASes of an edge have their first observations one after the other.  Where no AS comes back after
another one, the edge was observed. -/
theorem addPath_edge_observed (services : Services) (src : Asn) (number : Nat) (result : List Hop) (measurementId : Int)
    (poisons : Finset Asn) (state : RunState) (edge : Asn × Asn)
    (put : edge ∈ (final (addPath services src number result measurementId poisons state)).graph.edges)
    (new : edge ∉ state.graph.edges) :
    FirstAfter (src :: (tracerouteObservations (services.dig number) result).map Prod.fst) edge.1 edge.2 ∧
      (Unbroken (src :: (tracerouteObservations (services.dig number) result).map Prod.fst) →
        FollowedBy (src :: (tracerouteObservations (services.dig number) result).map Prod.fst) edge.1 edge.2) := by
  rw [addPath_eq] at put
  cases found : getTraceroutePath (services.dig number) src result with
  | error error => exact absurd (by simpa [found] using put) new
  | ok path =>
      have onPath : edge ∈ pairwise path.asns.items := by
        simp only [found] at put
        split at put
        · simp only [final_ok, addEdges_edges, Finset.mem_union, List.mem_toFinset] at put
          exact put.resolve_left new
        · exact absurd put new
      obtain ⟨trace, traced, same, _⟩ := getTraceroutePath_ok found
      rw [same, (tracePath_asns traced).1] at onPath
      split at onPath
      · simp [IndexedSet.empty, pairwise] at onPath
      · have pair := firstAfter_of_pairwise onPath
        exact ⟨pair, pair.followedBy⟩

section Example

def exampleHop (address : Text) : Hop := ⟨some [⟨some 1, some address⟩]⟩

def exampleOrigins : List Text := ["2 | ".toList, "1 | ".toList, "3 | ".toList]

def exampleServices : Services where
  announce _ := .ok ()
  create _ := .ok (.created none)
  poll _ _ := .ok ⟨false, none, []⟩
  dig _ position _ := .ok (exampleOrigins.getD position [])

def exampleTraceroute : List Hop :=
  [exampleHop "192.0.2.1".toList, exampleHop "192.0.2.2".toList, exampleHop "192.0.2.3".toList]

theorem exampleTraceroute_observations :
    tracerouteObservations (exampleServices.dig 0) exampleTraceroute = [(2, 1), (1, 1), (3, 1)] := by
  decide +kernel

/-- The path of the hops 2, 1 and 3 from the source 1 has the edge from 2 to 3. -/
theorem unobserved_edge_put :
    (2, 3) ∈ (final (addPath exampleServices 1 0 exampleTraceroute 0 ∅ (.opened 1))).graph.edges ∧
    (2, 3) ∉ (RunState.opened 1).graph.edges ∧
    ¬ FollowedBy (1 :: (tracerouteObservations (exampleServices.dig 0) exampleTraceroute).map Prod.fst) 2 3 := by
  refine ⟨by decide +kernel, by decide, fun followed => ?_⟩
  have inside := followed.infix
  rw [exampleTraceroute_observations] at inside
  revert inside
  decide

theorem example_complete : Complete mean (lookup (exampleServices.dig 0)) exampleTraceroute where
  answered hop member := by
    have all : exampleTraceroute.all fun hop => hop.result.isSome := by decide
    exact List.all_eq_true.mp all hop member
  found position hop inside := by
    have looked : ∀ position < (exampleTraceroute.filterMap (Hop.answer mean)).length,
        ∀ hop ∈ exampleTraceroute.filterMap (Hop.answer mean), ∃ asn ∈ [1, 2, 3],
          lookup (exampleServices.dig 0) position hop.1 = .ok (some asn) := by
      decide +kernel
    obtain ⟨bound, _⟩ := List.getElem?_eq_some_iff.mp inside
    obtain ⟨asn, _, answered⟩ := looked position bound hop (List.mem_of_getElem? inside)
    exact ⟨some asn, answered⟩

theorem traceroutePath_aligned_example :
    ∃ path, getTraceroutePath (exampleServices.dig 0) 1 exampleTraceroute = .ok path ∧ path.asns.items.Nodup ∧
      (path.asns.items ≠ [] → path.asns.items.head? = some 1) ∧ path.rtts.length = path.asns.items.length ∧
      ∀ (index : Nat) (asn : Asn) (rtt : ℚ), path.asns.items[index]? = some asn → path.rtts[index]? = some rtt →
        LastEntry (tracerouteObservations (exampleServices.dig 0) exampleTraceroute) asn rtt ∨
          asn = 1 ∧ asn ∉ (tracerouteObservations (exampleServices.dig 0) exampleTraceroute).map Prod.fst ∧ rtt = 0 :=
  traceroutePath_aligned 1 example_complete

theorem addPath_edge_observed_example :
    FirstAfter (1 :: (tracerouteObservations (exampleServices.dig 0) exampleTraceroute).map Prod.fst) 2 3 ∧
      (Unbroken (1 :: (tracerouteObservations (exampleServices.dig 0) exampleTraceroute).map Prod.fst) →
        FollowedBy (1 :: (tracerouteObservations (exampleServices.dig 0) exampleTraceroute).map Prod.fst) 2 3) :=
  addPath_edge_observed exampleServices 1 0 exampleTraceroute 0 ∅ (.opened 1) (2, 3) (by decide +kernel) (by decide)

end Example

end ActiveBgp.Frrp

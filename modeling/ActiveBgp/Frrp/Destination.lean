import ActiveBgp.Frrp.TracedPaths

namespace ActiveBgp.Frrp

open ActiveBgp.Python ActiveBgp.Data

section Success

variable {average : List ℚ → ℚ} {getAsn : Nat → Text → Except PyError (Option Asn)} {src : Asn}

def Answered (hop : Hop) : Prop := validReplies (hop.result.getD []) ≠ []

theorem readHops_success {result : List Hop} {hops : List (Text × ℚ)} {success : Bool}
    (read : readHops average result = .ok (hops, success)) :
    success = true ↔ ∃ hop, result.getLast? = some hop ∧ Answered hop := by
  induction result generalizing hops success with
  | nil =>
      cases read
      simp
  | cons hop rest ih =>
      cases replies : hop.result with
      | none => simp [readHops, replies] at read
      | some list =>
      cases later : readHops average rest with
      | error error => simp [readHops, replies, later, except_bind_error] at read
      | ok found =>
          simp only [readHops, replies, later, except_bind_ok] at read
          cases rest with
          | nil =>
              cases later
              cases valid : validReplies list <;> rw [valid] at read <;> cases read <;>
                simp [Answered, replies, valid]
          | cons next others =>
              rw [List.getLast?_cons_cons, ← ih later]
              cases valid : validReplies list <;> rw [valid] at read <;> cases read <;> simp

theorem tracePath_success {result : List Hop} {path : TracedPath} (found : tracePath average getAsn src result = .ok path) :
    path.success = true ↔
      (∃ hop, result.getLast? = some hop ∧ Answered hop) ∧ observations average getAsn result ≠ [] := by
  unfold tracePath at found
  cases read : readHops average result with
  | error error => simp [read, except_bind_error] at found
  | ok hops =>
  obtain ⟨hops, success⟩ := hops
  rw [← readHops_success read]
  cases resolved : resolveHops getAsn 0 hops .empty .empty with
  | error error => simp [read, resolved, except_bind_ok, except_bind_error] at found
  | ok pair =>
  obtain rfl := readHops_eq read
  have filled : pair = (firsts ((observations average getAsn result).map Prod.fst),
    lasts (observations average getAsn result)) := resolveHops_eq resolved
  simp only [read, resolved, filled, except_bind_ok] at found
  cases seen : observations average getAsn result with
  | nil =>
      rw [seen] at found
      cases found
      simp
  | cons entry rest =>
      rw [seen, List.map_cons] at found
      have head := head?_firsts entry.1 (rest.map Prod.fst)
      cases items : (firsts (entry.1 :: rest.map Prod.fst)).items with
      | nil => simp [items] at head
      | cons first others =>
          simp only [items] at found
          split at found
          · cases found
            simp
          · cases revised : reviseHops (lasts (entry :: rest)) (first :: others) (IndexedSet.empty.add src)
                (Dict.empty.set src 0) with
            | error error => simp [revised] at found
            | ok pair =>
                simp only [revised, except_bind_ok] at found
                cases found
                simp

theorem mem_observations {result : List Hop} {asn : Asn} (seen : asn ∈ (observations average getAsn result).map Prod.fst) :
    ∃ position, ∃ hop ∈ result.filterMap (Hop.answer average), getAsn position hop.1 = .ok (some asn) := by
  simp only [observations, observed, List.mem_map, List.mem_filterMap, Option.map_eq_some_iff] at seen
  obtain ⟨entry, ⟨⟨hop, position⟩, inside, origin, resolved, rfl⟩, rfl⟩ := seen
  refine ⟨position, hop, List.fst_mem_of_mem_zipIdx inside, ?_⟩
  unfold resolvedOrigin at resolved
  split at resolved
  · rename_i asn' found
    split at resolved
    · cases resolved
    · cases resolved
      exact found
  · cases resolved

end Success

/-- A path is a success exactly if the last hop answered and an origin was found.  It then ends at 3450
exactly if 3450 is observed and nothing new is observed after it. -/
theorem traceroutePath_ends {announced : Text → Prop} {dig : Nat → Text → Except PyError Text}
    (only : ∀ position ip, lookup dig position ip = .ok (some 3450) → announced ip) {src : Asn} {result : List Hop}
    {path : TraceroutePath} (found : getTraceroutePath dig src result = .ok path) :
    (path.success = true ↔
      (∃ hop, result.getLast? = some hop ∧ Answered hop) ∧ tracerouteObservations dig result ≠ []) ∧
    (path.success = true → path.asns.items ≠ [] ∧
      (path.asns.items.getLast? = some 3450 ↔ LastNew (src :: (tracerouteObservations dig result).map Prod.fst) 3450) ∧
      (path.asns.items.getLast? = some 3450 →
        src = 3450 ∨ ∃ hop ∈ result.filterMap (Hop.answer mean), announced hop.1)) := by
  obtain ⟨trace, traced, same, _, flag⟩ := getTraceroutePath_ok found
  have succeeds := tracePath_success traced
  rw [← flag] at succeeds
  refine ⟨succeeds, fun success => ?_⟩
  have asns : path.asns = firsts (src :: (tracerouteObservations dig result).map Prod.fst) := by
    rw [same, (tracePath_asns traced).1]
    exact if_neg (succeeds.mp success).2
  rw [asns]
  refine ⟨fun none => ?_, getLast?_firsts, fun last => ?_⟩
  · have start := head?_firsts src ((tracerouteObservations dig result).map Prod.fst)
    simp [none] at start
  · have inside := mem_firsts.mp (List.mem_of_getLast? last)
    rcases List.mem_cons.mp inside with atSource | observed
    · exact .inl atSource.symm
    · obtain ⟨position, hop, answered, origin⟩ := mem_observations observed
      exact .inr ⟨hop, answered, only position hop.1 origin⟩

section Example

/-- The addresses of 208.45.214.0/23. -/
def Announced (ip : Text) : Prop := "208.45.214.".toList <+: ip ∨ "208.45.215.".toList <+: ip

/-- All other addresses are of the AS 2. -/
def routerDig (_ : Nat) (_ : Text) : Except PyError Text := .ok "2 | ".toList

theorem routerDig_origin (ip : Text) (position : Nat) (found : lookup routerDig position ip = .ok (some 3450)) :
    Announced ip := by
  unfold lookup getAsnFromIp at found
  split at found
  · rename_i destination
    rcases destination with rfl | rfl
    · exact .inl (by decide)
    · exact .inr (by decide)
  · unfold originAsn at found
    split at found
    · have router : (do
          let output := Text.rstrip (← routerDig 0 [])
          let asString := beforeSeparator " | ".toList (output.filter (· ≠ '"'))
          if asString = [] then return none
          return some (← parseAsn ((asString.splitOn ' ').headD [])) : Except PyError (Option Asn)) = .ok (some 2) := by
        decide +kernel
      exact absurd (router.symm.trans found) (by decide)
    · cases found

def routerTraceroute : List Hop := [exampleHop "192.0.2.1".toList]

/-- The only hop is a router of the AS 2 that answers with an error. -/
theorem routerTraceroute_succeeds :
    ∃ path, getTraceroutePath routerDig 1 routerTraceroute = .ok path ∧ path.success = true ∧
      path.asns.items = [1, 2] := by
  have found : (getTraceroutePath routerDig 1 routerTraceroute).toOption.map
      (fun path => (path.success, path.asns.items)) = some (true, [1, 2]) := by
    decide +kernel
  cases path : getTraceroutePath routerDig 1 routerTraceroute with
  | error error => simp [path, Except.toOption] at found
  | ok path' =>
      simp only [path, Except.toOption, Option.map_some, Option.some.injEq, Prod.mk.injEq] at found
      exact ⟨path', rfl, found⟩

theorem success_before_origin :
    ¬ ∀ (announced : Text → Prop) (dig : Nat → Text → Except PyError Text),
      (∀ position ip, lookup dig position ip = .ok (some 3450) → announced ip) →
      ∀ (src : Asn) (result : List Hop) (path : TraceroutePath), getTraceroutePath dig src result = .ok path →
        path.success = true → path.asns.items.getLast? = some 3450 := by
  intro reaches
  obtain ⟨path, found, success, items⟩ := routerTraceroute_succeeds
  have last := reaches Announced routerDig (fun position ip => routerDig_origin ip position) 1 routerTraceroute path found success
  rw [items] at last
  revert last
  decide

theorem traceroutePath_ends_example :
    ∃ path, getTraceroutePath routerDig 1 routerTraceroute = .ok path ∧
      (path.success = true ↔ (∃ hop, routerTraceroute.getLast? = some hop ∧ Answered hop) ∧
        tracerouteObservations routerDig routerTraceroute ≠ []) ∧
      (path.success = true → path.asns.items ≠ [] ∧
        (path.asns.items.getLast? = some 3450 ↔
          LastNew (1 :: (tracerouteObservations routerDig routerTraceroute).map Prod.fst) 3450) ∧
        (path.asns.items.getLast? = some 3450 →
          1 = (3450 : Asn) ∨ ∃ hop ∈ routerTraceroute.filterMap (Hop.answer mean), Announced hop.1)) := by
  obtain ⟨path, found, _⟩ := routerTraceroute_succeeds
  exact ⟨path, found, traceroutePath_ends (fun position ip => routerDig_origin ip position) found⟩

end Example

end ActiveBgp.Frrp

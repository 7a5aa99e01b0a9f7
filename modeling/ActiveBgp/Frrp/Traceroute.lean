import ActiveBgp.Python.Collections
import ActiveBgp.Python.Effect
import ActiveBgp.Python.Lines
import Mathlib.Algebra.Order.Field.Rat
import Mathlib.Data.List.Infix

namespace ActiveBgp.Frrp

open ActiveBgp.Python

/-! # Traceroutes

What a RIPE Atlas measurement delivers, how the program waits for it, and how it
becomes a path of ASes.  Round-trip times are rational numbers here.
-/

abbrev Asn := Int

/-- An entry of the list `result` of a hop; both keys may be missing. -/
structure Reply where
  rtt : Option ℚ
  sender : Option Text
deriving DecidableEq

structure Hop where
  result : Option (List Reply)
deriving DecidableEq

structure Traceroute where
  result : Option (List Hop)
deriving DecidableEq

/-- One check of a measurement: what `AtlasResultsRequest.create` returns, and the
status that is fetched with it. -/
structure Poll where
  isSuccess : Bool
  results : Option (List Traceroute)
  status : Text
deriving DecidableEq

/-- The loop of `wait_on_measurement`; `none` stands for `(None, True)`. -/
def checks (poll : Nat → Except PyError Poll) (i : Nat) : Nat → Except PyError (Option Traceroute)
  | 0 => .ok none
  | remaining + 1 => do
      let answer ← poll i
      if "No suitable probes".toList <:+: answer.status then return none
      if answer.isSuccess then
        match answer.results with
        | none => throw .typeError
        | some (first :: _) => return some first
        | some [] => checks poll (i + 1) remaining
      else return none

def numChecks : Nat := 50

def waitOnMeasurement (poll : Nat → Except PyError Poll) : Except PyError (Option Traceroute) :=
  checks poll 0 numChecks

theorem waitOnMeasurement_first {poll : Nat → Except PyError Poll} {answer : Poll} {first : Traceroute}
    {rest : List Traceroute} (polled : poll 0 = .ok answer) (suited : ¬ "No suitable probes".toList <:+: answer.status)
    (succeeded : answer.isSuccess = true) (delivered : answer.results = some (first :: rest)) :
    waitOnMeasurement poll = .ok (some first) := by
  rw [waitOnMeasurement, numChecks, checks, polled, except_bind_ok, if_neg suited, if_pos succeeded, delivered]
  rfl

/-- `text.split(separator)[0]` -/
def beforeSeparator (separator : Text) : Text → Text
  | [] => []
  | char :: rest =>
      if separator.isPrefixOf (char :: rest) then [] else char :: beforeSeparator separator rest

/-- `int(text)`, where it is not inside a `try`. -/
def parseAsn (text : Text) : Except PyError Asn :=
  match Text.toInt? text with
  | some asn => .ok asn
  | none => .error (.valueError "invalid literal for int() with base 10".toList)

/-- The origin of an address by the DNS; `dig` is what the command prints for the query name. -/
def originAsn (dig : Text → Except PyError Text) (ip : Text) : Except PyError (Option Asn) := do
  match ip.splitOn '.' with
  | first :: second :: third :: fourth :: _ =>
      let name := ".".toList.intercalate [fourth, third, second, first] ++ ".origin.asn.cymru.com".toList
      let output := Text.rstrip (← dig name)
      let asString := beforeSeparator " | ".toList (output.filter (· ≠ '"'))
      if asString = [] then return none
      -- Of several origins the first one is taken.
      return some (← parseAsn ((asString.splitOn ' ').headD []))
  | _ => throw .indexError

def getAsnFromIp (dig : Text → Except PyError Text) (ip : Text) : Except PyError (Option Asn) :=
  if ip = "208.45.214.0".toList ∨ ip = "208.45.215.0".toList then return some 3450 else originAsn dig ip

/-- The replies that carry a round-trip time and a sender, both not falsy. -/
def validReplies (replies : List Reply) : List (Text × ℚ) :=
  replies.filterMap fun reply =>
    match reply.rtt, reply.sender with
    | some rtt, some sender => if rtt ≠ 0 ∧ sender ≠ [] then some (sender, rtt) else none
    | _, _ => none

/-- The loop over the hops: the first address and the average time of each hop that
answered, and whether the last hop did. -/
def readHops (average : List ℚ → ℚ) : List Hop → Except PyError (List (Text × ℚ) × Bool)
  | [] => .ok ([], false)
  | hop :: rest =>
      match hop.result with
      | none => .error .keyError
      | some replies => do
          let (hops, success) ← readHops average rest
          match validReplies replies with
          | [] => return (hops, success)
          | (ip, rtt) :: others =>
              return ((ip, average (rtt :: others.map Prod.snd)) :: hops, success || rest.isEmpty)

/-- The loop over the addresses.  An AS keeps its place, but its time is the last one. -/
def resolveHops (getAsn : Nat → Text → Except PyError (Option Asn)) (position : Nat) :
    List (Text × ℚ) → IndexedSet Asn → Dict Asn ℚ → Except PyError (IndexedSet Asn × Dict Asn ℚ)
  | [], hopAsns, hopRtts => .ok (hopAsns, hopRtts)
  | (ip, rtt) :: rest, hopAsns, hopRtts => do
      match ← getAsn position ip with
      | none => resolveHops getAsn (position + 1) rest hopAsns hopRtts
      | some asn =>
          if asn = 0 then resolveHops getAsn (position + 1) rest hopAsns hopRtts
          else resolveHops getAsn (position + 1) rest (hopAsns.add asn) (hopRtts.set asn rtt)

def reviseHops (hopRtts : Dict Asn ℚ) :
    List Asn → IndexedSet Asn → Dict Asn ℚ → Except PyError (IndexedSet Asn × Dict Asn ℚ)
  | [], revisedAsns, revisedRtts => .ok (revisedAsns, revisedRtts)
  | asn :: rest, revisedAsns, revisedRtts => do
      let rtt ← orRaise .keyError (hopRtts.get? asn)
      reviseHops hopRtts rest (revisedAsns.add asn) (revisedRtts.set asn rtt)

structure TracedPath where
  asns : IndexedSet Asn
  numHops : Nat
  rtts : Dict Asn ℚ
  success : Bool

/-- What all versions of `get_traceroute_path` do; `getAsn` finds the origin of the
address at a position. -/
def tracePath (average : List ℚ → ℚ) (getAsn : Nat → Text → Except PyError (Option Asn)) (src : Asn)
    (result : List Hop) : Except PyError TracedPath := do
  let (hops, success) ← readHops average result
  let (hopAsns, hopRtts) ← resolveHops getAsn 0 hops .empty .empty
  match hopAsns.items with
  | [] => return ⟨hopAsns, result.length, hopRtts, false⟩
  | first :: _ =>
      if first = src then return ⟨hopAsns, result.length, hopRtts, success⟩
      -- The first AS does not resolve in some cases.
      let (revisedAsns, revisedRtts) ← reviseHops hopRtts hopAsns.items (IndexedSet.empty.add src) (Dict.empty.set src 0)
      return ⟨revisedAsns, result.length, revisedRtts, success⟩

structure TraceroutePath where
  asns : IndexedSet Asn
  numHops : Nat
  rtts : List ℚ
  success : Bool

/-- `get_traceroute_path`; `dig` answers the query for the address at a position. -/
def getTraceroutePath (dig : Nat → Text → Except PyError Text) (src : Asn) (result : List Hop) :
    Except PyError TraceroutePath := do
  let traced ← tracePath (fun rtts => rtts.sum / rtts.length) (fun position => getAsnFromIp (dig position)) src result
  return ⟨traced.asns, traced.numHops, traced.rtts.values, traced.success⟩

section Path

variable {average : List ℚ → ℚ} {getAsn : Nat → Text → Except PyError (Option Asn)} {src : Asn}

theorem resolveHops_keys {position : Nat} {hops : List (Text × ℚ)} {hopAsns asns : IndexedSet Asn}
    {hopRtts rtts : Dict Asn ℚ} (same : hopRtts.keySet = hopAsns)
    (resolved : resolveHops getAsn position hops hopAsns hopRtts = .ok (asns, rtts)) : rtts.keySet = asns := by
  induction hops generalizing position hopAsns hopRtts with
  | nil =>
      cases resolved
      exact same
  | cons hop rest ih =>
      obtain ⟨ip, rtt⟩ := hop
      cases found : getAsn position ip with
      | error error => simp [resolveHops, found, except_bind_error] at resolved
      | ok answer =>
          cases answer with
          | none =>
              simp only [resolveHops, found, except_bind_ok] at resolved
              exact ih same resolved
          | some asn =>
              simp only [resolveHops, found, except_bind_ok] at resolved
              split at resolved
              · exact ih same resolved
              · exact ih (by rw [Dict.keySet_set, same]) resolved

theorem reviseHops_spec {hopRtts : Dict Asn ℚ} {items : List Asn} {revisedAsns asns : IndexedSet Asn}
    {revisedRtts rtts : Dict Asn ℚ} (same : revisedRtts.keySet = revisedAsns) {first : Asn}
    (head : revisedAsns.items.head? = some first)
    (revised : reviseHops hopRtts items revisedAsns revisedRtts = .ok (asns, rtts)) :
    rtts.keySet = asns ∧ asns.items.head? = some first := by
  induction items generalizing revisedAsns revisedRtts with
  | nil =>
      cases revised
      exact ⟨same, head⟩
  | cons asn rest ih =>
      cases found : hopRtts.get? asn with
      | none => simp [reviseHops, found, orRaise, except_bind_error] at revised
      | some rtt =>
          simp only [reviseHops, found, orRaise, except_bind_ok] at revised
          exact ih (by rw [Dict.keySet_set, same]) (IndexedSet.head?_add _ _ head) revised

/-- A path has the times of its ASes, and one that counts starts at the source. -/
theorem tracePath_spec {result : List Hop} {path : TracedPath} (found : tracePath average getAsn src result = .ok path) :
    path.rtts.keySet = path.asns ∧ (path.success = true → path.asns.items.head? = some src) := by
  unfold tracePath at found
  cases read : readHops average result with
  | error error => simp [read, except_bind_error] at found
  | ok hops =>
  cases resolved : resolveHops getAsn 0 hops.1 .empty .empty with
  | error error => simp [read, resolved, except_bind_ok, except_bind_error] at found
  | ok pair =>
  obtain ⟨hopAsns, hopRtts⟩ := pair
  have none : (Dict.empty : Dict Asn ℚ).keySet = IndexedSet.empty := rfl
  have keys : hopRtts.keySet = hopAsns := resolveHops_keys none resolved
  simp only [read, resolved, except_bind_ok] at found
  cases items : hopAsns.items with
  | nil =>
      simp only [items] at found
      cases found
      exact ⟨keys, fun impossible => by contradiction⟩
  | cons first rest =>
      simp only [items] at found
      split at found
      · rename_i atSource
        cases found
        exact ⟨keys, fun _ => by simp [items, atSource]⟩
      · cases revised : reviseHops hopRtts (first :: rest) (IndexedSet.empty.add src) (Dict.empty.set src 0) with
        | error error => simp [revised] at found
        | ok pair =>
            obtain ⟨asns, rtts⟩ := pair
            have start : (Dict.empty.set src (0 : ℚ)).keySet = IndexedSet.empty.add src := by
              rw [Dict.keySet_set]
              rfl
            obtain ⟨same, head⟩ := reviseHops_spec start rfl revised
            simp only [revised, except_bind_ok] at found
            cases found
            exact ⟨same, fun _ => head⟩

/-- The AS is the source or the origin of an address, and the time is one that was averaged,
or the zero of a source that was put in. -/
def Traced (average : List ℚ → ℚ) (getAsn : Nat → Text → Except PyError (Option Asn)) (src : Asn)
    (entry : Asn × ℚ) : Prop :=
  (entry.1 = src ∨ ∃ position ip, getAsn position ip = .ok (some entry.1)) ∧
    (entry.2 = 0 ∨ ∃ rtts, entry.2 = average rtts)

theorem readHops_times {result : List Hop} {hops : List (Text × ℚ)} {success : Bool}
    (read : readHops average result = .ok (hops, success)) : ∀ hop ∈ hops, ∃ rtts, hop.2 = average rtts := by
  induction result generalizing hops success with
  | nil =>
      cases read
      simp
  | cons hop rest ih =>
      cases replies : hop.result with
      | none => simp [readHops, replies] at read
      | some replies' =>
      cases later : readHops average rest with
      | error error => simp [readHops, replies, later, except_bind_error] at read
      | ok found =>
          simp only [readHops, replies, later, except_bind_ok] at read
          split at read
          · cases read
            exact ih later
          · cases read
            exact List.forall_mem_cons.mpr ⟨⟨_, rfl⟩, ih later⟩

theorem resolveHops_traced {position : Nat} {hops : List (Text × ℚ)} {hopAsns asns : IndexedSet Asn}
    {hopRtts rtts : Dict Asn ℚ} (times : ∀ hop ∈ hops, ∃ rtts, hop.2 = average rtts)
    (traced : ∀ entry ∈ hopRtts.entries, Traced average getAsn src entry)
    (resolved : resolveHops getAsn position hops hopAsns hopRtts = .ok (asns, rtts)) :
    ∀ entry ∈ rtts.entries, Traced average getAsn src entry := by
  induction hops generalizing position hopAsns hopRtts with
  | nil =>
      cases resolved
      exact traced
  | cons hop rest ih =>
      obtain ⟨ip, rtt⟩ := hop
      obtain ⟨time, later⟩ := List.forall_mem_cons.mp times
      cases found : getAsn position ip with
      | error error => simp [resolveHops, found, except_bind_error] at resolved
      | ok answer =>
          cases answer with
          | none =>
              simp only [resolveHops, found, except_bind_ok] at resolved
              exact ih later traced resolved
          | some asn =>
              simp only [resolveHops, found, except_bind_ok] at resolved
              split at resolved
              · exact ih later traced resolved
              · refine ih later (fun entry member => ?_) resolved
                rcases Dict.mem_entries_set member with rfl | old
                · exact ⟨.inr ⟨position, ip, found⟩, .inr time⟩
                · exact traced entry old

theorem reviseHops_traced {hopRtts : Dict Asn ℚ} (known : ∀ entry ∈ hopRtts.entries, Traced average getAsn src entry)
    {items : List Asn} {revisedAsns asns : IndexedSet Asn} {revisedRtts rtts : Dict Asn ℚ}
    (traced : ∀ entry ∈ revisedRtts.entries, Traced average getAsn src entry)
    (revised : reviseHops hopRtts items revisedAsns revisedRtts = .ok (asns, rtts)) :
    ∀ entry ∈ rtts.entries, Traced average getAsn src entry := by
  induction items generalizing revisedAsns revisedRtts with
  | nil =>
      cases revised
      exact traced
  | cons asn rest ih =>
      cases found : hopRtts.get? asn with
      | none => simp [reviseHops, found, orRaise, except_bind_error] at revised
      | some rtt =>
          simp only [reviseHops, found, orRaise, except_bind_ok] at revised
          refine ih (fun entry member => ?_) revised
          rcases Dict.mem_entries_set member with rfl | old
          · exact known _ (Dict.mem_entries_of_get? found)
          · exact traced entry old

theorem tracePath_traced {result : List Hop} {path : TracedPath} (found : tracePath average getAsn src result = .ok path) :
    ∀ entry ∈ path.rtts.entries, Traced average getAsn src entry := by
  unfold tracePath at found
  cases read : readHops average result with
  | error error => simp [read, except_bind_error] at found
  | ok hops =>
  cases resolved : resolveHops getAsn 0 hops.1 .empty .empty with
  | error error => simp [read, resolved, except_bind_ok, except_bind_error] at found
  | ok pair =>
  obtain ⟨hopAsns, hopRtts⟩ := pair
  have known : ∀ entry ∈ hopRtts.entries, Traced average getAsn src entry :=
    resolveHops_traced (readHops_times read) (by simp [Dict.empty]) resolved
  simp only [read, resolved, except_bind_ok] at found
  cases items : hopAsns.items with
  | nil =>
      simp only [items] at found
      cases found
      exact known
  | cons first rest =>
      simp only [items] at found
      split at found
      · cases found
        exact known
      · cases revised : reviseHops hopRtts (first :: rest) (IndexedSet.empty.add src) (Dict.empty.set src 0) with
        | error error => simp [revised] at found
        | ok pair =>
            simp only [revised, except_bind_ok] at found
            cases found
            refine reviseHops_traced known (fun entry member => ?_) revised
            rcases Dict.mem_entries_set member with rfl | old
            · exact ⟨.inl rfl, .inl rfl⟩
            · simp [Dict.empty] at old

/-- Every AS of a path has one time, and a path that counts starts at the source. -/
theorem getTraceroutePath_spec {dig : Nat → Text → Except PyError Text} {result : List Hop} {path : TraceroutePath}
    (found : getTraceroutePath dig src result = .ok path) :
    path.rtts.length = path.asns.items.length ∧
      (path.success = true → path.asns.items.head? = some src) := by
  unfold getTraceroutePath at found
  cases traced : tracePath (fun rtts => rtts.sum / rtts.length) (fun position => getAsnFromIp (dig position)) src result with
  | error error => simp [traced] at found
  | ok path =>
      obtain ⟨keys, head⟩ := tracePath_spec traced
      simp only [traced, except_bind_ok] at found
      cases found
      exact ⟨by simp [Dict.values, ← keys, Dict.keySet, Dict.keys], head⟩

end Path

end ActiveBgp.Frrp

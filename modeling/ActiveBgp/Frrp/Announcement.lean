import ActiveBgp.Server.JoinedLists
import ActiveBgp.Rib.Ipv4
import ActiveBgp.Data.History

namespace ActiveBgp.Frrp

open ActiveBgp.Python ActiveBgp.Rib ActiveBgp.Server ActiveBgp.Data

variable {ip : Ipaddress}

abbrev Servers (ip : Ipaddress) := Nat → State ip

/-- The argument `as_seq`.  A set comes with the order in which it iterates. -/
inductive AsSeq where
  | none
  | set (asns : IndexedSet Int)
  | int (asn : Int)
  | other

def origin : Int := 3450

def AsSeq.asSeqSet : AsSeq → Except PyError (Option (IndexedSet Int))
  | .none => .ok Option.none
  | .set asns => .ok (some asns)
  | .int asn => .ok (some (IndexedSet.empty.add asn))
  | .other => .error (.valueError "AS Seq is not a list or int!".toList)

def queryText (asSeqSet : Option (IndexedSet Int)) : Text :=
  match asSeqSet with
  | some asns => ",".toList.intercalate ((asns.items ++ [origin]).map Text.ofInt)
  | none => []

/-- `requests.post` to the server behind `port`. -/
def post (port : Nat) (request : Request) : Effect (Servers ip) Response := do
  let servers ← get
  set (Function.update servers port (handle request (servers port)).2)
  return (handle request (servers port)).1

def announceAt (request : Request) : List Nat → Effect (Servers ip) Unit
  | [] => pure ()
  | port :: ports => do
      let response ← post port request
      if response.status ≠ 200 then throw (.valueError "Could not make announcement!".toList)
      announceAt request ports

def makeAnnouncement (prefixText : Text) (ports : List Nat) (asSeq : AsSeq) : Effect (Servers ip) Unit := do
  let asSeqSet ← Effect.ofExcept asSeq.asSeqSet
  announceAt ⟨.post, '/' :: prefixText, [(.list .asSeq, queryText asSeqSet)]⟩ ports

/-- What the given argument should leave in the entry. -/
def announcedPath (asSeqSet : Option (IndexedSet Int)) : List Value :=
  match asSeqSet with
  | some asns => (asns.items ++ [origin]).map .int
  | none => []

theorem announcedPath_eq_nil (asSeqSet : Option (IndexedSet Int)) :
    announcedPath asSeqSet = [] ↔ asSeqSet = none := by
  cases asSeqSet <;> simp [announcedPath]

theorem queryText_eq (asSeqSet : Option (IndexedSet Int)) :
    queryText asSeqSet = ",".toList.intercalate ((announcedPath asSeqSet).map Value.text) := by
  cases asSeqSet with
  | none => rfl
  | some asns =>
      rw [queryText, announcedPath, List.map_map]
      rfl

def AsSeq.InRange (asSeq : AsSeq) : Prop :=
  ∀ asns, asSeq.asSeqSet = .ok (some asns) → ∀ asn ∈ asns.items, 0 ≤ asn ∧ asn < 2 ^ 32

theorem announcedPath_stored {asSeq : AsSeq} (inRange : asSeq.InRange) {asSeqSet : Option (IndexedSet Int)}
    (given : asSeq.asSeqSet = .ok asSeqSet) : ∀ value ∈ announcedPath asSeqSet, value.IsAsn := by
  cases asSeqSet with
  | none => simp [announcedPath]
  | some asns =>
      intro value member
      obtain ⟨asn, inside, rfl⟩ := List.mem_map.mp member
      rcases List.mem_append.mp inside with poison | last
      · exact ⟨asn, rfl, inRange asns given asn poison⟩
      · rw [List.mem_singleton.mp last]
        exact ⟨origin, rfl, by decide⟩

/-- The path that the server behind `port` shows for the network. -/
def shownPath (network : ip.Network) (servers : Servers ip) (port : Nat) : List Value :=
  shownList ((servers port).nlri.get? network) .asSeq

/-- `request` makes a server show `items` for the network, unless they are empty. -/
def Offers (network : ip.Network) (request : Request) (items : List Value) : Prop :=
  ∀ state : State ip, Mirrored state → ∃ body last entry, handle request state = (⟨200, body⟩, last) ∧
    Mirrored last ∧ last.nlri.get? network = some entry ∧
    entry.asSeq = writeOver [] (shownList (state.nlri.get? network) .asSeq) items

/-- The loop returns, and each of its servers takes the path over. -/
theorem announceAt_ok {network : ip.Network} {request : Request} {items : List Value}
    (offers : Offers network request items) (ports : List Nat) {servers : Servers ip}
    (mirrored : ∀ port, Mirrored (servers port)) :
    ∃ last, announceAt request ports servers = .ok () last ∧
      (∀ port, Mirrored (last port)) ∧ (∀ port, port ∉ ports → last port = servers port) ∧
      ∀ port ∈ ports, ∃ entry, (last port).nlri.get? network = some entry ∧
        entry.asSeq = writeOver [] (shownPath network servers port) items := by
  induction ports generalizing servers with
  | nil => exact ⟨servers, rfl, mirrored, fun _ _ => rfl, by simp⟩
  | cons first ports ih =>
      obtain ⟨body, after, entry, answered, kept, found, shown⟩ := offers (servers first) (mirrored first)
      have next : ∀ port, Mirrored (Function.update servers first after port) := by
        intro port
        by_cases same : port = first
        · subst same
          simpa using kept
        · simpa [same] using mirrored port
      obtain ⟨last, done, lastMirrored, others, taken⟩ := ih next
      refine ⟨last, ?_, lastMirrored, ?_, ?_⟩
      · have sent : post first request servers = .ok ⟨200, body⟩ (Function.update servers first after) := by
          simp only [post, Effect.bind_eq, Effect.get_apply, Effect.set_apply, answered, Effect.pure_apply]
        rw [announceAt, Effect.bind_eq, sent]
        exact done
      · intro port outside
        obtain ⟨different, later⟩ : port ≠ first ∧ port ∉ ports := by simpa using outside
        rw [others port later, Function.update_of_ne different]
      · intro port member
        by_cases again : port ∈ ports
        · obtain ⟨final, stored, same⟩ := taken port again
          refine ⟨final, stored, ?_⟩
          rw [same]
          by_cases isFirst : port = first
          · subst isFirst
            have between : shownPath network (Function.update servers port after) port =
                writeOver [] (shownPath network servers port) items := by
              simp only [shownPath, Function.update_self, shownList, found]
              exact shown
            rw [between, writeOver_twice]
          · rw [shownPath, Function.update_of_ne isFirst]
            rfl
        · have isFirst : port = first := by simpa [again] using member
          subst isFirst
          refine ⟨entry, ?_, shown⟩
          rw [others port again, Function.update_self]
          exact found

structure Call where
  ports : List Nat
  asSeq : AsSeq

def Call.run (prefixText : Text) (call : Call) : Effect (Servers ip) Unit :=
  makeAnnouncement prefixText call.ports call.asSeq

/-- The servers after a sequence of calls, by code that catches their exceptions. -/
def serversAfter (ip : Ipaddress) (prefixText : Text) (calls : List Call) : Servers ip :=
  calls.foldl (fun servers call => final (call.run prefixText servers)) fun _ => State.empty ip

def pathsSent (calls : List Call) (port : Nat) : List (List Value) :=
  calls.filterMap fun call =>
    if port ∈ call.ports then call.asSeq.asSeqSet.toOption.map announcedPath else none

/-- After a call that returned, every server it reached shows the given poisons, each
once, before the origin, and no path when none were given. -/
def Delivered (network : ip.Network) (call : Call) (servers : Servers ip) : Prop :=
  ∀ asSeqSet, call.asSeq.asSeqSet = .ok asSeqSet → ∀ port ∈ call.ports,
    ∃ entry, (servers port).nlri.get? network = some entry ∧ entry.asSeq = announcedPath asSeqSet

/-- No call without poisons uses a port to which poisons were sent before. -/
def NeverUnpoisoned (calls : List Call) : Prop :=
  Chronicle (fun before call => call.asSeq.asSeqSet = .ok none →
    ∀ port ∈ call.ports, ∀ earlier ∈ before, port ∈ earlier.ports →
      ∀ asns, earlier.asSeq.asSeqSet ≠ .ok (some asns)) calls

theorem mem_pathsSent {calls : List Call} {port : Nat} {path : List Value} :
    path ∈ pathsSent calls port ↔ ∃ call ∈ calls, port ∈ call.ports ∧
      ∃ asSeqSet, call.asSeq.asSeqSet = .ok asSeqSet ∧ announcedPath asSeqSet = path := by
  simp only [pathsSent, List.mem_filterMap]
  refine exists_congr fun call => and_congr_right fun _ => ?_
  by_cases member : port ∈ call.ports
  · cases call.asSeq.asSeqSet <;> simp [member, Except.toOption]
  · simp [member]

theorem pathsSent_empty {calls : List Call} {port : Nat} :
    (∀ path ∈ pathsSent calls port, path = []) ↔
      ∀ call ∈ calls, port ∈ call.ports → ∀ asns, call.asSeq.asSeqSet ≠ .ok (some asns) := by
  constructor
  · intro all call member atPort asns given
    have empty := all _ (mem_pathsSent.mpr ⟨call, member, atPort, _, given, rfl⟩)
    exact absurd ((announcedPath_eq_nil _).mp empty) (by simp)
  · intro none path sent
    obtain ⟨call, member, atPort, asSeqSet, given, rfl⟩ := mem_pathsSent.mp sent
    rw [announcedPath_eq_nil]
    cases asSeqSet with
    | none => rfl
    | some asns => exact absurd given (none call member atPort asns)

section Calls

variable {prefixText text : Text} {network : ip.Network} (routed : Routed ip ('/' :: prefixText) text network)

include routed

/-- A call with a valid argument returns; an invalid one raises before any request. -/
theorem Call.run_cases {call : Call} (inRange : call.asSeq.InRange) {servers : Servers ip}
    (mirrored : ∀ port, Mirrored (servers port)) :
    match call.asSeq.asSeqSet with
    | .error error => call.run prefixText servers = .error error servers
    | .ok asSeqSet => ∃ last, call.run prefixText servers = .ok () last ∧
        (∀ port, Mirrored (last port)) ∧ (∀ port, port ∉ call.ports → last port = servers port) ∧
        ∀ port ∈ call.ports, ∃ entry, (last port).nlri.get? network = some entry ∧
          entry.asSeq = writeOver [] (shownPath network servers port) (announcedPath asSeqSet) := by
  cases given : call.asSeq.asSeqSet with
  | error error => simp [Call.run, makeAnnouncement, given, Effect.bind_eq]
  | ok asSeqSet =>
      have offers : Offers network ⟨.post, '/' :: prefixText, [(.list .asSeq, queryText asSeqSet)]⟩
          (announcedPath asSeqSet) := by
        intro state mirrored
        rw [queryText_eq]
        obtain ⟨entry, last, done, rest⟩ := handle_asSeq mirrored routed (announcedPath_stored inRange given)
        exact ⟨_, last, entry, done, rest⟩
      obtain ⟨last, done, rest⟩ := announceAt_ok offers call.ports mirrored
      refine ⟨last, ?_, rest⟩
      simp only [Call.run, makeAnnouncement, given, Effect.bind_eq, Effect.ofExcept_ok, done]

/-- Behind each port the shown path is the register of the paths that were sent there. -/
theorem shownPath_serversAfter {calls : List Call} (inRange : ∀ call ∈ calls, call.asSeq.InRange) (port : Nat) :
    Mirrored (serversAfter ip prefixText calls port) ∧
      shownPath network (serversAfter ip prefixText calls) port = register [] (pathsSent calls port) := by
  induction calls using List.reverseRecOn generalizing port with
  | nil => exact ⟨mirrored_empty, rfl⟩
  | append_singleton earlier call ih =>
      have before := ih fun call member => inRange call (by simp [member])
      have outcome := call.run_cases routed (inRange call (by simp)) fun port => (before port).1
      have split : serversAfter ip prefixText (earlier ++ [call]) =
          final (call.run prefixText (serversAfter ip prefixText earlier)) := by
        simp [serversAfter]
      have sent : pathsSent (earlier ++ [call]) port = pathsSent earlier port ++
          (if port ∈ call.ports then call.asSeq.asSeqSet.toOption.map announcedPath else none).toList := by
        simp only [pathsSent, List.filterMap_append]
        rfl
      rw [split, sent]
      cases given : call.asSeq.asSeqSet with
      | error error =>
          rw [given] at outcome
          rw [outcome]
          simpa [Except.toOption] using before port
      | ok asSeqSet =>
          rw [given] at outcome
          obtain ⟨last, done, mirrored, others, taken⟩ := outcome
          rw [done]
          refine ⟨mirrored port, ?_⟩
          by_cases member : port ∈ call.ports
          · obtain ⟨entry, found, same⟩ := taken port member
            simp only [final_ok, if_pos member, Except.toOption, Option.map_some, Option.toList_some,
              register_append]
            rw [← (before port).2, ← same]
            simp [shownPath, shownList, found, NLRI.list]
          · simp only [final_ok, if_neg member, Option.toList_none, List.append_nil]
            rw [← (before port).2, shownPath, others port member]
            rfl

/-- Every call of a sequence delivers what it was given exactly if no call without
poisons follows one with poisons to the same port. -/
theorem announcements_delivered_iff {calls : List Call} (inRange : ∀ call ∈ calls, call.asSeq.InRange) :
    (∀ before call after, calls = before ++ call :: after →
      ∀ servers, call.run prefixText (serversAfter ip prefixText before) = .ok () servers →
        Delivered network call servers) ↔ NeverUnpoisoned calls := by
  have delivered (before : List Call) (call : Call) (after : List Call) (same : calls = before ++ call :: after) :
      (∀ servers, call.run prefixText (serversAfter ip prefixText before) = .ok () servers →
        Delivered network call servers) ↔
      (call.asSeq.asSeqSet = .ok none → ∀ port ∈ call.ports, ∀ earlier ∈ before, port ∈ earlier.ports →
        ∀ asns, earlier.asSeq.asSeqSet ≠ .ok (some asns)) := by
    have early : ∀ call ∈ before, call.asSeq.InRange := fun call member => inRange call (by simp [same, member])
    have tracked := shownPath_serversAfter routed early
    have outcome := call.run_cases routed (inRange call (by simp [same])) fun port => (tracked port).1
    cases given : call.asSeq.asSeqSet with
    | error error =>
        rw [given] at outcome
        simp [outcome]
    | ok asSeqSet =>
        rw [given] at outcome
        obtain ⟨last, done, _, _, taken⟩ := outcome
        have atPort (port : Nat) (member : port ∈ call.ports) :
            (∃ entry, (last port).nlri.get? network = some entry ∧ entry.asSeq = announcedPath asSeqSet) ↔
              (asSeqSet = none → ∀ path ∈ pathsSent before port, path = []) := by
          obtain ⟨entry, found, shown⟩ := taken port member
          rw [(tracked port).2] at shown
          rw [← announcedPath_eq_nil, ← register_eq_blank, ← writeOver_eq_new, ← shown]
          simp [found]
        constructor
        · intro all none port member
          obtain rfl : asSeqSet = Option.none := by simpa using none
          exact pathsSent_empty.mp ((atPort port member).mp (all last done _ given port member) rfl)
        · intro unpoisoned servers returned other same port member
          rw [done] at returned
          cases returned
          rw [given] at same
          cases same
          exact (atPort port member).mpr fun none =>
            pathsSent_empty.mpr (unpoisoned (by rw [none]) port member)
  constructor
  · intro all before call after same
    exact (delivered before call after same).mp (all before call after same)
  · intro unpoisoned before call after same
    exact (delivered before call after same).mpr (unpoisoned before call after same)

end Calls

section Example

def examplePrefix : Text := "208.45.214.0/24".toList

def exampleNetwork : ipv4.Network := Ipv4.maskNat 3492664832 24

theorem exampleRouted : Routed ipv4 ('/' :: examplePrefix) examplePrefix exampleNetwork :=
  ⟨by decide +kernel, by decide +kernel⟩

def poisoned : Call := ⟨[5000, 5001], .set ((IndexedSet.empty.add 65001).add 65002)⟩

def unpoisoned : Call := ⟨[5000, 5001], .none⟩

theorem poisoned_inRange : poisoned.asSeq.InRange := by
  intro asns given asn member
  cases given
  simp only [IndexedSet.mem_add, IndexedSet.empty, List.not_mem_nil, false_or] at member
  omega

theorem unpoisoned_inRange : unpoisoned.asSeq.InRange := by
  intro asns given
  cases given

/-- The next source's unpoisoned announcement still carries the poisons of the one before. -/
theorem leftover_poison : (∀ call ∈ [poisoned, unpoisoned], call.asSeq.InRange) ∧
    ¬ ∀ before call after, [poisoned, unpoisoned] = before ++ call :: after →
      ∀ servers, call.run examplePrefix (serversAfter ipv4 examplePrefix before) = .ok () servers →
        Delivered exampleNetwork call servers := by
  refine ⟨by simp [poisoned_inRange, unpoisoned_inRange], fun all => ?_⟩
  have shown : (match unpoisoned.run examplePrefix (serversAfter ipv4 examplePrefix [poisoned]) with
      | .ok _ servers => shownPath exampleNetwork servers 5000
      | .error _ _ => []) = [.int 65001, .int 65002, .int 3450] := by decide +kernel
  cases returned : unpoisoned.run examplePrefix (serversAfter ipv4 examplePrefix [poisoned]) with
  | error error servers => simp [returned] at shown
  | ok value servers =>
      obtain ⟨entry, found, empty⟩ := all [poisoned] unpoisoned [] rfl servers returned none rfl 5000 (by decide)
      simp [returned, shownPath, shownList, found, NLRI.list, empty, announcedPath] at shown

theorem announcements_delivered_iff_example :
    (∀ before call after, [unpoisoned, poisoned] = before ++ call :: after →
      ∀ servers, call.run examplePrefix (serversAfter ipv4 examplePrefix before) = .ok () servers →
        Delivered exampleNetwork call servers) ↔ NeverUnpoisoned [unpoisoned, poisoned] :=
  announcements_delivered_iff exampleRouted (by simp [poisoned_inRange, unpoisoned_inRange])

end Example

end ActiveBgp.Frrp

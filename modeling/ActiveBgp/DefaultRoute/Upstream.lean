import ActiveBgp.Frrp.Traceroute

namespace ActiveBgp.DefaultRoute

open ActiveBgp.Python

/-- An entry of the list `result` of a hop. -/
structure Reply where
  x : Option Text
  sender : Option Text
deriving DecidableEq

structure Hop where
  result : Option (List Reply)
deriving DecidableEq

/-- What is compared with `==`: a text is never equal to a number. -/
inductive Asn where
  | text (text : Text)
  | number (value : Int)
deriving DecidableEq

/-- `get_asn_from_ip`; `dig` is what the command prints for the query name. -/
def getAsnFromIp (dig : Text → Except PyError Text) (ip : Text) : Except PyError Text := do
  match ip.splitOn '.' with
  | first :: second :: third :: fourth :: _ =>
      let cymruEncodedIp := ".".toList.intercalate [fourth, third, second, first] ++ ".origin.asn.cymru.com".toList
      let output := Text.rstrip (← dig cymruEncodedIp)
      return Frrp.beforeSeparator " | ".toList (output.filter (· ≠ '"'))
  | _ => throw .indexError

def checkEqualList (list : List Text) : Bool := list.tail = list.dropLast

/-- The lines of the log, without their times. -/
abbrev Logging := Effect (List Text)

def logMessage (msg : Text) : Logging Unit := modify (· ++ [msg])

/-- The loop over the results of a hop. -/
def hopIps (replies : List Reply) : Except PyError (List Text) :=
  (replies.filter fun reply => reply.x = none).mapM fun reply => orRaise .keyError reply.sender

def logDifferent (hopNum : Nat) (ips : List Text) : Logging Unit :=
  if checkEqualList ips then pure ()
  else logMessage ("Different IP for at least one IP for hop ".toList ++ Text.ofNat hopNum)

/-- The loop over the hops; the first address of a hop stands for it. -/
def readHops : Nat → List Hop → Logging (List Text)
  | _, [] => pure []
  | hopNum, hop :: rest => do
      let perHopResults ← Effect.ofExcept (orRaise .keyError hop.result)
      let ips ← Effect.ofExcept (hopIps perHopResults)
      match ips with
      | [] => readHops (hopNum + 1) rest
      | first :: _ => do
          logDifferent hopNum ips
          let later ← readHops (hopNum + 1) rest
          return first :: later

/-- The loop over the addresses, which leaves out those without an AS. -/
def resolveHops (dig : Text → Except PyError Text) : List Text → Except PyError (List Text)
  | [] => .ok []
  | hopIp :: rest => do
      let hopAsn ← getAsnFromIp dig hopIp
      let hopAsns ← resolveHops dig rest
      return if hopAsn = [] then hopAsns else hopAsn :: hopAsns

/-- The loop over the ASes. -/
def findUpstream (asn : Asn) (port : Int) : List Text → Logging (Option Text)
  | [] => pure none
  | hopAsn :: rest =>
      if Asn.text hopAsn ≠ asn then
        if hopAsn ≠ "3450".toList ∨ hopAsn ≠ Text.ofInt port then return some hopAsn
        else do
          logMessage ("Immediate upstream is 3450 or ".toList ++ Text.ofInt port)
          findUpstream asn port rest
      else findUpstream asn port rest

/-- The upstream, the ASes of the hops, and the number of hops. -/
def getImmediateUpstream (dig : Text → Except PyError Text) (asn : Asn) (result : List Hop) (port : Int) :
    Logging (Option Text × List Text × Nat) := do
  let hopIps ← readHops 0 result
  logMessage ("Found ".toList ++ Text.ofNat hopIps.length ++ " total valid (non-empty) hops".toList)
  let hopAsns ← Effect.ofExcept (resolveHops dig hopIps)
  logMessage "Getting immediate upstream to poison...".toList
  let immediateUpstream ← findUpstream asn port hopAsns
  return (immediateUpstream, hopAsns, result.length)

section Hops

/-- Each result of the hop is a timeout or has a sender. -/
def Hop.Answered (hop : Hop) : Prop :=
  ∃ replies, hop.result = some replies ∧ ∀ reply ∈ replies, reply.x ≠ none ∨ reply.sender ≠ none

/-- The first address of the hop. -/
def Hop.address (hop : Hop) : Option Text :=
  (((hop.result.getD []).filter fun reply => reply.x = none).filterMap Reply.sender).head?

theorem senders_ok {replies : List Reply} (sent : ∀ reply ∈ replies, reply.sender ≠ none) :
    (replies.mapM fun reply => orRaise .keyError reply.sender) = .ok (replies.filterMap Reply.sender) := by
  induction replies with
  | nil => rfl
  | cons reply rest ih =>
      obtain ⟨now, later⟩ := List.forall_mem_cons.mp sent
      obtain ⟨ip, isSender⟩ := Option.ne_none_iff_exists'.mp now
      rw [List.mapM_cons, ih later, List.filterMap_cons_some isSender, isSender]
      rfl

theorem hopIps_ok {replies : List Reply} (answered : ∀ reply ∈ replies, reply.x ≠ none ∨ reply.sender ≠ none) :
    hopIps replies = .ok ((replies.filter fun reply => reply.x = none).filterMap Reply.sender) := by
  refine senders_ok fun reply member => ?_
  obtain ⟨inside, noTimeout⟩ := List.mem_filter.mp member
  exact (answered reply inside).resolve_left (by simpa using noTimeout)

theorem logDifferent_returns (hopNum : Nat) (ips log : List Text) :
    ∃ after, logDifferent hopNum ips log = .ok () after := by
  rw [logDifferent]
  split
  · exact ⟨log, rfl⟩
  · exact ⟨_, rfl⟩

theorem readHops_returns {hops : List Hop} (answered : ∀ hop ∈ hops, hop.Answered) (hopNum : Nat) (log : List Text) :
    ∃ after, readHops hopNum hops log = .ok (hops.filterMap Hop.address) after := by
  induction hops generalizing hopNum log with
  | nil => exact ⟨log, rfl⟩
  | cons hop rest ih =>
      obtain ⟨⟨replies, given, answers⟩, later⟩ := List.forall_mem_cons.mp answered
      have addressed : hop.address = ((replies.filter fun reply => reply.x = none).filterMap Reply.sender).head? := by
        rw [Hop.address, given, Option.getD_some]
      have read : Effect.ofExcept (hopIps replies) log =
          .ok ((replies.filter fun reply => reply.x = none).filterMap Reply.sender) log := by
        rw [hopIps_ok answers, Effect.ofExcept_ok]
      rw [readHops, Effect.bind_eq, given, orRaise, Effect.ofExcept_ok]
      simp only
      rw [Effect.bind_eq, read]
      cases ips : (replies.filter fun reply => reply.x = none).filterMap Reply.sender with
      | nil =>
          rw [ips, List.head?_nil] at addressed
          rw [List.filterMap_cons_none addressed]
          exact ih later (hopNum + 1) log
      | cons first others =>
          rw [ips, List.head?_cons] at addressed
          rw [List.filterMap_cons_some addressed]
          obtain ⟨logged, notes⟩ := logDifferent_returns hopNum (first :: others) log
          obtain ⟨after, read⟩ := ih later (hopNum + 1) logged
          refine ⟨after, ?_⟩
          simp only [Effect.bind_eq, notes, read, Effect.pure_apply]

variable {dig : Text → Except PyError Text} {asnOf : Text → Text}

theorem resolveHops_returns {ips : List Text} (resolves : ∀ ip ∈ ips, getAsnFromIp dig ip = .ok (asnOf ip)) :
    resolveHops dig ips = .ok ((ips.map asnOf).filter (· ≠ [])) := by
  induction ips with
  | nil => rfl
  | cons ip rest ih =>
      obtain ⟨now, later⟩ := List.forall_mem_cons.mp resolves
      rw [resolveHops, now, except_bind_ok, ih later, except_bind_ok, List.map_cons]
      by_cases unknown : asnOf ip = []
      · rw [if_pos unknown, List.filter_cons_of_neg (by simp [unknown])]
        rfl
      · rw [if_neg unknown, List.filter_cons_of_pos (by simp [unknown])]
        rfl

end Hops

section Upstream

variable {dig : Text → Except PyError Text} {asnOf : Text → Text} {edge port : Int}

/-- The AS is the one that the tests on the port exclude: only where all are 3450. -/
def Excluded (port : Int) (hopAsn : Text) : Prop := port = 3450 ∧ hopAsn = "3450".toList

instance (port : Int) (hopAsn : Text) : Decidable (Excluded port hopAsn) := inferInstanceAs (Decidable (_ ∧ _))

theorem findUpstream_returns (edge port : Int) (hopAsns log : List Text) :
    ∃ after, findUpstream (.number edge) port hopAsns log = .ok (hopAsns.dropWhile (Excluded port)).head? after := by
  induction hopAsns generalizing log with
  | nil => exact ⟨log, rfl⟩
  | cons hopAsn rest ih =>
      have number : Asn.text hopAsn ≠ .number edge := nofun
      rw [findUpstream, if_pos number]
      have excluded : ¬ (hopAsn ≠ "3450".toList ∨ hopAsn ≠ Text.ofInt port) ↔ Excluded port hopAsn := by
        rw [not_or, not_not, not_not, Excluded, and_comm]
        refine and_congr_left fun is3450 => ?_
        rw [is3450, eq_comm]
        exact Text.ofInt_injective.eq_iff' (by decide)
      by_cases taken : hopAsn ≠ "3450".toList ∨ hopAsn ≠ Text.ofInt port
      · rw [if_pos taken, List.dropWhile_cons_of_neg (by simpa using fun skipped => excluded.mpr skipped taken)]
        exact ⟨log, rfl⟩
      · rw [if_neg taken, List.dropWhile_cons_of_pos (by simpa using excluded.mp taken), Effect.bind_eq, logMessage,
          Effect.modify_apply]
        exact ih _

theorem find?_eq_find?_iff {α : Type*} {weak strong : α → Bool} (implies : ∀ value, strong value = true → weak value = true)
    (values : List α) : values.find? weak = values.find? strong ↔ ∀ first ∈ values.find? weak, strong first = true := by
  constructor
  · intro same first found
    exact List.find?_some (same ▸ found)
  · intro all
    cases found : values.find? weak with
    | none =>
        refine (List.find?_eq_none.mpr fun value member holds => ?_).symm
        exact List.find?_eq_none.mp found value member (implies value holds)
    | some first =>
        obtain ⟨_, before, after, split, earlier⟩ := List.find?_eq_some_iff_append.mp found
        refine (List.find?_eq_some_iff_append.mpr ⟨all first found, before, after, split, fun value member => ?_⟩).symm
        have refused := earlier value member
        cases holds : strong value with
        | false => rfl
        | true => simp [implies value holds] at refused

/-- The AS is not the edge, and the prefix is not announced from it. -/
def IsUpstream (edge port : Int) (hopAsn : Text) : Prop :=
  hopAsn ≠ Text.ofInt edge ∧ hopAsn ≠ "3450".toList ∧ hopAsn ≠ Text.ofInt port

instance (edge port : Int) (hopAsn : Text) : Decidable (IsUpstream edge port hopAsn) :=
  inferInstanceAs (Decidable (_ ∧ _))

theorem IsUpstream.not_excluded {hopAsn : Text} (upstream : IsUpstream edge port hopAsn) : ¬ Excluded port hopAsn :=
  fun excluded => upstream.2.1 excluded.2

/-- The ASes of the hops that have one. -/
def resolvedAsns (asnOf : Text → Text) (result : List Hop) : List Text :=
  ((result.filterMap Hop.address).map asnOf).filter (· ≠ [])

theorem getImmediateUpstream_returns {result : List Hop} (answered : ∀ hop ∈ result, hop.Answered)
    (resolves : ∀ ip ∈ result.filterMap Hop.address, getAsnFromIp dig ip = .ok (asnOf ip)) (edge port : Int) (log : List Text) :
    ∃ after, getImmediateUpstream dig (.number edge) result port log =
      .ok (((resolvedAsns asnOf result).dropWhile (Excluded port)).head?, resolvedAsns asnOf result, result.length) after := by
  obtain ⟨read, hops⟩ := readHops_returns answered 0 log
  have asns : resolveHops dig (result.filterMap Hop.address) = .ok (resolvedAsns asnOf result) := resolveHops_returns resolves
  obtain ⟨after, found⟩ := findUpstream_returns edge port (resolvedAsns asnOf result)
    (read ++ ["Found ".toList ++ Text.ofNat (result.filterMap Hop.address).length ++ " total valid (non-empty) hops".toList] ++
      ["Getting immediate upstream to poison...".toList])
  refine ⟨after, ?_⟩
  rw [getImmediateUpstream, Effect.bind_eq, hops]
  simp only [Effect.bind_eq, logMessage, Effect.modify_apply, asns, Effect.ofExcept_ok, found]
  rfl

/-- The first upstream is returned only if it is the first AS of all, apart from 3450 where it is the port. -/
theorem getImmediateUpstream_first_iff {result : List Hop} (answered : ∀ hop ∈ result, hop.Answered)
    (resolves : ∀ ip ∈ result.filterMap Hop.address, getAsnFromIp dig ip = .ok (asnOf ip)) (log : List Text) :
    ∃ upstream after, getImmediateUpstream dig (.number edge) result port log =
        .ok (upstream, resolvedAsns asnOf result, result.length) after ∧
      (upstream = (resolvedAsns asnOf result).find? (IsUpstream edge port) ↔
        ∀ first ∈ ((resolvedAsns asnOf result).dropWhile (Excluded port)).head?, IsUpstream edge port first) := by
  obtain ⟨after, returned⟩ := getImmediateUpstream_returns answered resolves edge port log
  refine ⟨_, after, returned, ?_⟩
  have implies (hopAsn : Text) (isUpstream : decide (IsUpstream edge port hopAsn) = true) :
      (!decide (Excluded port hopAsn)) = true := by
    simpa using (of_decide_eq_true isUpstream).not_excluded
  rw [← List.find?_not_eq_head?_dropWhile, find?_eq_find?_iff implies]
  simp

def exampleResult : List Hop :=
  [⟨some [⟨none, some "192.0.2.1".toList⟩, ⟨some ['*'], none⟩]⟩, ⟨some [⟨some ['*'], none⟩]⟩,
    ⟨some [⟨none, some "198.51.100.1".toList⟩]⟩, ⟨some [⟨none, some "203.0.113.1".toList⟩]⟩]

/-- The first address belongs to the edge AS 64500. -/
def exampleDig (name : Text) : Except PyError Text :=
  if name = "1.2.0.192.origin.asn.cymru.com".toList then .ok "\"64500 | 192.0.2.0/24 | US | arin | 2001-01-01\"\n".toList
  else if name = "1.100.51.198.origin.asn.cymru.com".toList then .ok "\"64501 | 198.51.100.0/24 | US | arin |\"\n".toList
  else .ok []

def exampleAsnOf (ip : Text) : Text :=
  if ip = "192.0.2.1".toList then "64500".toList else if ip = "198.51.100.1".toList then "64501".toList else []

theorem exampleResult_answered : ∀ hop ∈ exampleResult, hop.Answered := by
  simp only [exampleResult, List.forall_mem_cons, List.not_mem_nil, false_imp_iff, implies_true, and_true]
  exact ⟨⟨_, rfl, by decide⟩, ⟨_, rfl, by decide⟩, ⟨_, rfl, by decide⟩, ⟨_, rfl, by decide⟩⟩

theorem exampleResult_resolves :
    ∀ ip ∈ exampleResult.filterMap Hop.address, getAsnFromIp exampleDig ip = .ok (exampleAsnOf ip) := by
  decide +kernel

theorem getImmediateUpstream_first_iff_example :
    ∃ upstream after, getImmediateUpstream exampleDig (.number 64500) exampleResult 5000 [] =
        .ok (upstream, resolvedAsns exampleAsnOf exampleResult, exampleResult.length) after ∧
      (upstream = (resolvedAsns exampleAsnOf exampleResult).find? (IsUpstream 64500 5000) ↔
        ∀ first ∈ ((resolvedAsns exampleAsnOf exampleResult).dropWhile (Excluded 5000)).head?, IsUpstream 64500 5000 first) :=
  getImmediateUpstream_first_iff exampleResult_answered exampleResult_resolves []

/-- The edge AS is returned as its own upstream. -/
theorem edge_returned :
    ∃ after, getImmediateUpstream exampleDig (.number 64500) exampleResult 5000 [] =
        .ok (some "64500".toList, ["64500".toList, "64501".toList], 4) after ∧
      ["64500".toList, "64501".toList].find? (IsUpstream 64500 5000) = some "64501".toList := by
  obtain ⟨after, returned⟩ := getImmediateUpstream_returns exampleResult_answered exampleResult_resolves 64500 5000 []
  have asns : resolvedAsns exampleAsnOf exampleResult = ["64500".toList, "64501".toList] := by decide +kernel
  rw [asns] at returned
  exact ⟨after, returned, by decide +kernel⟩

end Upstream

end ActiveBgp.DefaultRoute

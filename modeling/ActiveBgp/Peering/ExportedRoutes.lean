import ActiveBgp.Bird.ImportControl
import ActiveBgp.Peering.AllMuxes
import ActiveBgp.Peering.Exports

namespace ActiveBgp.Peering.Exports

open ActiveBgp.Python ActiveBgp.Shell ActiveBgp.Bird ActiveBgp.Bird.Path ActiveBgp.Bird.SetAttribute ActiveBgp.Bird.Filter
  ActiveBgp.Data.Exploration ActiveBgp.Peering.PeeringPrefix

section Running

variable {lib : Library} {ctx : Context} {state after : State} {path : AsPath 4} {communities : List Community}

/-- The path and the communities of a route as a filter has left it. -/
structure Sends (state after : State) (path : AsPath 4) (communities : List Community) : Prop where
  rte : after.rte = state.rte
  path : after.eaGet true .bgpPath = .path (encode path)
  communities : after.eaGet true .bgpCommunity = .clist communities

variable {net : Network ctx.lib}

/-- The prefix that is announced. -/
def Network.routePrefix (net : Network lib) : IpAddr × Nat := (net.ip, net.len.word.toNat)

end Running

section Requests

variable {host : Host} {vars : Variables}

theorem Numeral.numeric (number : Numeral) : Text.Numeric number.digits := fun char inside => .inl (number.isDigit char inside)

theorem Numeral.integer (number : Numeral) : integer? number.digits = some (number.value : Int) := by
  obtain ⟨first, others, digits⟩ := List.exists_cons_of_ne_nil number.digits_ne_nil
  have digit := number.isDigit first (by rw [digits]; exact List.mem_cons_self)
  have plain : integer? number.digits = ((unsigned? number.digits).map fun value : Nat => (value : Int)).filter fun value =>
      -9223372036854775808 ≤ value ∧ value < 9223372036854775808 := by
    rw [digits, integer?]
    · rintro rest ⟨⟩
      cases digit
    · rintro rest ⟨⟩
      cases digit
  have small := number.small
  rw [plain, number.written, Option.map_some, Option.filter_some, if_pos (by rw [decide_eq_true_iff]; omega)]

theorem Numeral.valueOf_eq (number : Numeral) (constant : IsConstant number.digits) :
    valueOf number.digits = number.value := Option.some.inj (constant.integer.symm.trans number.integer)

def testbed : Numeral := ⟨"47065".toList, 47065, by decide, by decide⟩

def one : Numeral := ⟨"1".toList, 1, by decide, by decide⟩

/-- What the script is asked for. -/
structure Request where
  poisons : List Numeral
  prepend : Numeral
  origin : Numeral
  communities : List { number : Numeral // number.value ≤ 65535 }
  fullCommunities : List CommunityText

namespace Request

/-- The variables after the options. -/
structure Given (request : Request) (vars : Variables) : Prop where
  poisons : vars.poisons = " ".toList.intercalate (request.poisons.map Numeral.digits)
  prepend : vars.prepend = request.prepend.digits
  origin : vars.origin = request.origin.digits
  communities : vars.communities = request.communities.map fun number => number.val.digits
  fullCommunities : vars.fullCommunities = request.fullCommunities.map CommunityText.text

/-- Poisons come behind the number of the testbed, an origin comes once where no count is given. -/
def prepends (request : Request) : List Numeral :=
  if request.poisons ≠ [] then testbed :: request.poisons
  else if request.prepend.value = 0 then if request.origin.value = 0 then [] else [request.origin]
  else List.replicate request.prepend.value (if request.origin.value = 0 then testbed else request.origin)

def own (number : { number : Numeral // number.value ≤ 65535 }) : CommunityText :=
  ⟨testbed, number.val, by decide, number.property⟩

def announced {lib : Library} (request : Request) (net : Network lib) : Announced lib :=
  ⟨net, request.prepends, request.communities.map own ++ request.fullCommunities⟩

end Request

theorem splitWords_numerals (numbers : List Numeral) :
    splitWords (" ".toList.intercalate (numbers.map Numeral.digits)) = numbers.map Numeral.digits := by
  refine splitWords_intercalate fun item inside => ?_
  obtain ⟨number, _, rfl⟩ := List.mem_map.mp inside
  exact ⟨number.digits_ne_nil, dark_numeric number.numeric⟩

theorem intercalate_digits_ne_nil {numbers : List Numeral} (nonempty : numbers ≠ []) :
    " ".toList.intercalate (numbers.map Numeral.digits) ≠ [] := by
  refine Text.intercalate_ne_nil (by simpa using nonempty) fun text inside => ?_
  obtain ⟨number, _, rfl⟩ := List.mem_map.mp inside
  exact number.digits_ne_nil

/-- Without poisons, the origin is prepended as often as the count says. -/
theorem pathLines_originated (none : vars.poisons = []) {count asn : Numeral} (plain : vars.Plain)
    (prepend : vars.prepend = count.digits) (origin : vars.origin = asn.digits) : pathLines vars.originated =
      (List.replicate count.value (if asn.value = 0 then testbed else asn)).map fun number => pathPrepend number.digits := by
  have times : valueOf vars.prepend = count.value := by rw [prepend, count.valueOf_eq (prepend ▸ plain.prepend)]
  have number : valueOf vars.origin = asn.value := by rw [origin, asn.valueOf_eq (origin ▸ plain.origin)]
  rw [pathLines, originated_poisons, originated_prepend, if_neg (not_not.mpr none), times, Int.toNat_natCast]
  by_cases zero : count.value = 0
  · rw [zero]
    rfl
  · have written : vars.originated.origin = (if asn.value = 0 then testbed else asn).digits := by
      simp only [Variables.originated, none, times, number, Int.natCast_eq_zero, ne_eq, zero, not_false_eq_true, true_and]
      split
      · rfl
      · exact origin
    rw [if_pos (by omega), written, List.map_replicate, List.map_replicate]

theorem pathLines_given {request : Request} (given : request.Given vars) (plain : vars.Plain) :
    pathLines vars.settled = request.prepends.map fun number => pathPrepend number.digits := by
  by_cases poisons : request.poisons = []
  · have none : vars.poisons = [] := by
      rw [given.poisons, poisons]
      rfl
    have bare : vars.prepended.poisons = [] := (prepended_poisons vars).trans none
    have origin : vars.prepended.origin = request.origin.digits := (prepended_origin vars).trans given.origin
    have times : valueOf vars.prepend = request.prepend.value := by
      rw [given.prepend, request.prepend.valueOf_eq (given.prepend ▸ plain.prepend)]
    have number : valueOf vars.origin = request.origin.value := by
      rw [given.origin, request.origin.valueOf_eq (given.origin ▸ plain.origin)]
    rw [Request.prepends, if_neg (not_not.mpr poisons), Variables.settled]
    by_cases alone : request.prepend.value = 0 ∧ request.origin.value ≠ 0
    · have once : vars.prepended.prepend = one.digits := by
        rw [Variables.prepended, times, number, if_pos (by omega)]
        rfl
      rw [pathLines_originated bare plain.prepended once origin, if_pos alone.1, if_neg alone.2, if_neg alone.2]
      rfl
    · have kept : vars.prepended.prepend = request.prepend.digits := by
        rw [Variables.prepended, times, number, if_neg (by omega), given.prepend]
      rw [pathLines_originated bare plain.prepended kept origin]
      by_cases zero : request.prepend.value = 0
      · have bareOrigin : request.origin.value = 0 := by_contra fun nonzero => alone ⟨zero, nonzero⟩
        rw [if_pos zero, if_pos bareOrigin, if_pos bareOrigin, zero]
        rfl
      · rw [if_neg zero]
  · have some : vars.poisons ≠ [] := given.poisons ▸ intercalate_digits_ne_nil poisons
    have kept : vars.settled.poisons = vars.poisons := (originated_poisons _).trans (prepended_poisons vars)
    rw [Request.prepends, if_pos poisons, pathLines, kept, if_pos some, given.poisons, splitWords_numerals, List.map_map]
    rfl

/-- Texts that start with numbers are no `undef`. -/
theorem isDefined_numerals {texts : List Text} (nonempty : texts ≠ [])
    (numbers : ∀ text ∈ texts, ∃ (number : Numeral) (rest : Text), text = number.digits ++ rest) : isDefined texts = true := by
  obtain ⟨first, others, rfl⟩ := List.exists_cons_of_ne_nil nonempty
  obtain ⟨number, behind, rfl⟩ := numbers first List.mem_cons_self
  obtain ⟨char, more, digits⟩ := List.exists_cons_of_ne_nil number.digits_ne_nil
  have digit : char.isDigit = true := number.isDigit char (by rw [digits]; exact List.mem_cons_self)
  rw [digits, List.cons_append]
  generalize more ++ behind = tail
  obtain ⟨rest, joined⟩ : ∃ rest, " ".toList.intercalate ((char :: tail) :: others) = char :: rest := by
    cases others with
    | nil => exact ⟨tail, List.intercalate_singleton⟩
    | cons second rest => exact ⟨_, List.intercalate_cons_cons ..⟩
  have undefined : "undef".toList = 'u' :: "ndef".toList := by decide
  rw [isDefined, joined, decide_eq_true_iff, undefined]
  intro listed
  rcases List.mem_cons.mp listed with empty | listed
  · cases empty
  · rw [(List.cons.inj (List.mem_singleton.mp listed)).1] at digit
    exact absurd digit (by decide)

theorem communityLines_given {request : Request} (given : request.Given vars) :
    communityLines vars.settled =
      (request.communities.map Request.own ++ request.fullCommunities).map fun community => communityAdd community.text := by
  have listed {texts : List Text} (line : Text → Text)
      (numbers : ∀ text ∈ texts, ∃ (number : Numeral) (rest : Text), text = number.digits ++ rest) :
      (if isDefined texts then texts.map line else []) = texts.map line := by
    by_cases empty : texts = []
    · rw [empty]
      exact ite_self _
    · rw [if_pos (isDefined_numerals empty numbers)]
  have kept : vars.settled.communities = vars.communities ∧ vars.settled.fullCommunities = vars.fullCommunities := by
    unfold Variables.settled Variables.originated Variables.prepended
    split <;> split <;> exact ⟨rfl, rfl⟩
  rw [communityLines, kept.1, kept.2, given.communities, given.fullCommunities, listed, listed, List.map_map, List.map_map,
    List.map_append, List.map_map]
  · rfl
  · intro text inside
    obtain ⟨community, _, rfl⟩ := List.mem_map.mp inside
    exact ⟨community.asn, _, rfl⟩
  · intro text inside
    obtain ⟨number, _, rfl⟩ := List.mem_map.mp inside
    exact ⟨number.val, [], (List.append_nil _).symm⟩

theorem filterText_given {lib : Library} {request : Request} (given : request.Given vars) (plain : vars.Plain)
    (net : Network lib) : filterText net.text vars.settled = (request.announced net).text := by
  rw [filterText, bodyLines, pathLines_given given plain, communityLines_given given]
  rfl

/-- A plain announcement that is accepted, with the options of the request. -/
structure Asks (host : Host) (args : List Text) (request : Request) (mux : Text) : Prop where
  plain : PlainArgs args
  accepts : Accepts host args
  given : request.Given (optioned args .empty)
  listed : mux ∈ muxes host (optioned args .empty).mux

variable {lib : Library}

theorem operand_nil_ne (net : Network lib) : operand [] ≠ net.text := by
  obtain ⟨first, others, same, digit⟩ := dotted_cons net.isAddress
  have unset : operand [] = 'u' :: "nset".toList := by decide
  rw [unset, Network.text, same]
  intro equal
  rw [← (List.cons.inj equal).1] at digit
  exact absurd digit (by decide)

end Requests

section Sent

/-- A route at an external session, before its filter. -/
structure Offered (isLinkLocal : IpAddr → Bool) (p : Proto) (rta : Rta) (state : State) (path : AsPath 4)
    (communities : List Community) : Prop where
  external : p.isInternal = false
  notServer : p.rsClient = false
  carries : Carries rta state path
  communities : state.eaGet true .bgpCommunity = .clist communities
  short : state.rte.net.2 ≤ 32
  passes : ∃ handed, bgpImportControl isLinkLocal p rta state = .ready handed

variable {ctx : Filter.Context} {isLinkLocal : IpAddr → Bool} {p : Proto} {rta : Rta} {state : State} {path : AsPath 4}
  {communities : List Community}

/-- The filter finds the number of the session in front of the path. -/
theorem Offered.handed (offered : Offered isLinkLocal p rta state path communities) :
    ∃ handed, bgpImportControl isLinkLocal p rta state = .ready handed ∧ handed.rte = state.rte ∧
      Sends handed handed (prepend (asn p.localAs) path) communities := by
  obtain ⟨handed, ready⟩ := offered.passes
  have control := handed_bgpImportControl offered.external offered.notServer offered.carries ready
  exact ⟨handed, ready, control.rte, rfl, control.path, control.communities.trans offered.communities⟩

def exampleNet : Network exampleContext.lib where
  address := "184.164.224.0".toList
  ip := 0xB8A4E000
  len := ⟨"24".toList, 24, by decide, by decide⟩
  isAddress := Data.Lexing.Pattern.nullable_after.mp (by decide)
  pton := by decide
  short := by decide
  isPrefix := by decide

/-- Two poisons and a community. -/
def exampleRequest : Request :=
  ⟨[⟨"3356".toList, 3356, by decide, by decide⟩, ⟨"174".toList, 174, by decide, by decide⟩],
    ⟨"0".toList, 0, by decide, by decide⟩, ⟨"0".toList, 0, by decide, by decide⟩,
    [⟨⟨"100".toList, 100, by decide, by decide⟩, by decide⟩], []⟩

def exampleArgs : List Text :=
  ["-m".toList, "amsterdam01".toList, "-p".toList, "3356 174".toList, "-c".toList, "100".toList, "184.164.224.0/24".toList]

end Sent

end ActiveBgp.Peering.Exports

import ActiveBgp.Rib.Communities
import ActiveBgp.Rib.Runs
import ActiveBgp.Python.Blanks

namespace ActiveBgp.Rib

open ActiveBgp.Python ActiveBgp.Python.Text

/-! # Reading a command text back

Blanks separate the parts of the text of an NLRI, and the communities inside it.
Around the two numbers of a community there may be blanks as well, so the text
is that of one NLRI only if no blank of a community stands next to another one.
-/

def Community (text : Text) : Prop := Value.IsCommunity (.str text)

/-- What follows a part of the text: nothing, or a blank and more. -/
theorem append_separated_inj {first second rest others : Text} (outside : ' ' ∉ first) (absent : ' ' ∉ second)
    (separated : Separated ' ' rest) (otherSeparated : Separated ' ' others) (same : first ++ rest = second ++ others) :
    first = second ∧ rest = others := by
  cases rest with
  | nil =>
      cases others with
      | nil => simpa using same
      | cons char others =>
          obtain rfl := otherSeparated char rfl
          exact absurd (by rw [← List.append_nil first, same]; simp) outside
  | cons char rest =>
      obtain rfl := separated char rfl
      cases others with
      | nil => exact absurd (by rw [← List.append_nil second, ← same]; simp) absent
      | cons other others =>
          obtain rfl := otherSeparated other rfl
          obtain ⟨rfl, rfl⟩ := append_cons_inj outside absent same
          exact ⟨rfl, rfl⟩

section Items

variable {text : Text}

theorem community_iff : Community text ↔ ∃ left right high low, text = left ++ ':' :: right ∧ Shorts left right high low := by
  constructor
  · rintro ⟨_, ⟨⟩, colon, accepted⟩
    exact (communityListCheck_shorts colon accepted).2
  · rintro ⟨left, right, high, low, rfl, shorts⟩
    exact ⟨_, rfl, by simp, shorts.accepted⟩

theorem community_items : Items Community where
  filled text community blank := by
    obtain ⟨left, right, high, low, rfl, shorts⟩ := community_iff.mp community
    exact not_blank_of_toInt? shorts.highParsed blank.of_append_left
  single front rest community longer := by
    obtain ⟨left, right, high, low, rfl, shorts⟩ := community_iff.mp community
    obtain ⟨left', right', high', low', same, shorts'⟩ := community_iff.mp longer
    obtain ⟨rfl, rfl⟩ := append_cons_inj shorts.noColon.1 shorts'.noColon.1 (by simpa using same)
    exact blank_of_toInt?_append (not_blank_of_toInt? shorts.lowParsed) shorts'.lowParsed
  behind text blanks blank := by
    have noColon : ':' ∉ blanks := fun member => absurd (blank ':' member) (by decide)
    constructor
    · intro community
      obtain ⟨left, right, high, low, same, shorts⟩ := community_iff.mp community
      have inside : ':' ∈ text := by
        have member : ':' ∈ text ++ blanks := by simp [same]
        exact (List.mem_append.mp member).resolve_right noColon
      obtain ⟨front, back, rfl, free⟩ := List.eq_append_cons_of_mem inside
      obtain ⟨rfl, rfl⟩ := append_cons_inj free shorts.noColon.1 (by simpa using same)
      exact community_iff.mpr ⟨front, back, high, low, rfl, shorts.highParsed,
        (toInt?_append_blank blank back).symm.trans shorts.lowParsed, shorts.highRange, shorts.lowRange⟩
    · intro community
      obtain ⟨left, right, high, low, rfl, shorts⟩ := community_iff.mp community
      exact community_iff.mpr ⟨left, right ++ blanks, high, low, by simp, shorts.highParsed,
        (toInt?_append_blank blank right).trans shorts.lowParsed, shorts.highRange, shorts.lowRange⟩
  before text blanks blank := by
    have noColon : ':' ∉ blanks := fun member => absurd (blank ':' member) (by decide)
    constructor
    · intro community
      obtain ⟨left, right, high, low, same, shorts⟩ := community_iff.mp community
      have inside : ':' ∈ text := by
        have member : ':' ∈ blanks ++ text := by simp [same]
        exact (List.mem_append.mp member).resolve_left noColon
      obtain ⟨front, back, rfl, free⟩ := List.eq_append_cons_of_mem inside
      have freeFront : ':' ∉ blanks ++ front := by simp [noColon, free]
      obtain ⟨rfl, rfl⟩ := append_cons_inj freeFront shorts.noColon.1 (by simpa using same)
      exact community_iff.mpr ⟨front, back, high, low, rfl,
        (toInt?_blank_append blank front).symm.trans shorts.highParsed, shorts.lowParsed, shorts.highRange,
        shorts.lowRange⟩
    · intro community
      obtain ⟨left, right, high, low, rfl, shorts⟩ := community_iff.mp community
      exact community_iff.mpr ⟨blanks ++ left, right, high, low, by simp,
        (toInt?_blank_append blank left).trans shorts.highParsed, shorts.lowParsed, shorts.highRange, shorts.lowRange⟩

theorem Community.not_mem (community : Community text) {char : Char} (outside : OutsideInt char) (notColon : char ≠ ':') :
    char ∉ text := by
  obtain ⟨_, ⟨⟩, colon, accepted⟩ := community
  exact not_mem_community outside notColon colon accepted

end Items

section Paths

variable {ip : Ipaddress}

def numbersText (numbers : List Int) : Text := joined (numbers.map ofInt)

theorem not_mem_numbersText {char : Char} (outside : OutsideInt char) (notBlank : char ≠ ' ') (numbers : List Int) :
    char ∉ numbersText numbers := by
  refine not_mem_intercalate (fun text member => ?_) notBlank
  obtain ⟨number, _, rfl⟩ := List.mem_map.mp member
  exact not_mem_ofInt outside number

theorem numbersText_injective : Function.Injective numbersText := intercalate_ofInt_injective (by decide)

/-- The numbers in front of a set of them. -/
def leadingText (numbers : List Int) : Text := if numbers = [] then [] else numbersText numbers ++ [' ']

theorem leadingText_injective : Function.Injective leadingText := by
  intro first second same
  unfold leadingText at same
  split at same <;> split at same
  · rename_i empty otherEmpty
    rw [empty, otherEmpty]
  · simp at same
  · simp at same
  · exact numbersText_injective (List.append_cancel_right same)

theorem joined_leading (numbers : List Int) (last : Text) :
    joined (numbers.map ofInt ++ [last]) = leadingText numbers ++ last := by
  induction numbers with
  | nil => simp [leadingText]
  | cons number rest ih =>
      cases rest with
      | nil => simp [leadingText, numbersText, joined_cons_cons]
      | cons next rest =>
          simp only [List.map_cons, List.cons_append, joined_cons_cons] at ih ⊢
          rw [ih]
          simp [leadingText, numbersText, joined_cons_cons]

theorem pathText_eq (route : Route ip) : route.pathText =
    if route.asSet = [] then '[' :: (numbersText route.asSeq ++ [']'])
    else '[' :: (leadingText route.asSeq ++ '[' :: (numbersText route.asSet ++ [']', ']'])) := by
  unfold Route.pathText
  split
  · simp [numbersText, joined]
  · have split : [' '].intercalate (route.asSeq.map ofInt ++ ['[' :: (numbersText route.asSet ++ [']'])]) =
        leadingText route.asSeq ++ '[' :: (numbersText route.asSet ++ [']']) := joined_leading _ _
    simp only [numbersText, joined] at split ⊢
    simpa using congrArg (· ++ [']']) split

theorem pathText_injective {first second : Route ip} (same : first.pathText = second.pathText) :
    first.asSeq = second.asSeq ∧ first.asSet = second.asSet := by
  have bracket (numbers : List Int) : '[' ∉ leadingText numbers := by
    unfold leadingText
    split
    · simp
    · simpa using not_mem_numbersText (by decide) (by decide) numbers
  have plain (numbers : List Int) : '[' ∉ numbersText numbers ++ [']'] := by
    simpa using not_mem_numbersText (by decide) (by decide) numbers
  rw [pathText_eq, pathText_eq] at same
  split at same <;> split at same
  · rename_i empty otherEmpty
    exact ⟨numbersText_injective (List.append_cancel_right (List.cons.inj same).2), by rw [empty, otherEmpty]⟩
  · exact absurd (by rw [(List.cons.inj same).2]; simp) (plain first.asSeq)
  · exact absurd (by rw [← (List.cons.inj same).2]; simp) (plain second.asSeq)
  · obtain ⟨seqs, sets⟩ := append_cons_inj (bracket _) (bracket _) (List.cons.inj same).2
    exact ⟨leadingText_injective seqs, numbersText_injective (List.append_cancel_right sets)⟩

end Paths

section Routes

variable {ip : Ipaddress}

def Route.communityText (route : Route ip) : Text :=
  if route.community = [] then [] else " community [ ".toList ++ joined route.community ++ " ]".toList

def Route.asPathText (route : Route ip) : Text :=
  if route.asSeq = [] ∧ route.asSet = [] then [] else " as-path ".toList ++ route.pathText

theorem Route.text_eq (route : Route ip) : route.text = "route ".toList ++ (ip.networkText route.routePrefix ++
    ' ' :: ("next-hop ".toList ++ (route.nextHop.text ++ (route.communityText ++ route.asPathText)))) := by
  unfold Route.text Route.communityText Route.asPathText
  split <;> split <;> simp [List.intercalate_cons_cons, joined]

/-- Addresses are printed without blanks and on one line. -/
def Ipaddress.OneWord (ip : Ipaddress) : Prop := ∀ address, ' ' ∉ ip.str address ∧ '\n' ∉ ip.str address

theorem NextHop.text_injective : Function.Injective (NextHop.text : NextHop ip → Text) := by
  intro first second same
  cases first with
  | self =>
      cases second with
      | self => rfl
      | address host => exact absurd same.symm (ip.str_plain host).2.2
  | address host =>
      cases second with
      | self => exact absurd same (ip.str_plain host).2.2
      | address other =>
          have parsed := congrArg (fun text => ip.address? (.str text)) same
          simp only [NextHop.text, ip.address?_print, Option.some.injEq] at parsed
          rw [parsed]

theorem networkText_injective : Function.Injective ip.networkText := by
  intro first second same
  have parsed := congrArg ip.network? same
  simpa only [Ipaddress.networkText, ip.network?_print, Option.some.injEq] using parsed

theorem asPathText_injective {first second : Route ip} (same : first.asPathText = second.asPathText) :
    first.asSeq = second.asSeq ∧ first.asSet = second.asSet := by
  unfold Route.asPathText at same
  split at same <;> split at same
  · rename_i empty otherEmpty
    exact ⟨empty.1.trans otherEmpty.1.symm, empty.2.trans otherEmpty.2.symm⟩
  · simp at same
  · simp at same
  · exact pathText_injective (List.append_cancel_left same)

section Reading

variable {first second : Route ip} (firstGood : ∀ item ∈ first.community, Community item)
  (secondGood : ∀ item ∈ second.community, Community item) (tight : Tight first.community)

include firstGood secondGood tight

theorem attributes_injective (same : first.communityText ++ first.asPathText = second.communityText ++ second.asPathText) :
    first.community = second.community ∧ first.asPathText = second.asPathText := by
  have closed {route : Route ip} (good : ∀ item ∈ route.community, Community item) : ']' ∉ joined route.community ++ [' '] := by
    have outside : ']' ∉ joined route.community :=
      not_mem_intercalate (fun item member => (good item member).not_mem (by decide) (by decide)) (by decide)
    simpa using outside
  have different (route : Route ip) (rest : Text) : route.asPathText ≠ " community [ ".toList ++ rest := by
    unfold Route.asPathText
    split <;> simp
  unfold Route.communityText at same
  split at same <;> split at same
  · rename_i empty otherEmpty
    exact ⟨empty.trans otherEmpty.symm, same⟩
  · exact absurd (by simpa using same) (different first (joined second.community ++ " ]".toList ++ second.asPathText))
  · exact absurd (by simpa using same.symm) (different second (joined first.community ++ " ]".toList ++ first.asPathText))
  · have texts : (joined first.community ++ [' ']) ++ ']' :: first.asPathText =
        (joined second.community ++ [' ']) ++ ']' :: second.asPathText := by
      simpa using same
    obtain ⟨communities, paths⟩ := append_cons_inj (closed firstGood) (closed secondGood) texts
    exact ⟨community_items.joined_injective firstGood secondGood tight (List.append_cancel_right communities), paths⟩

theorem Route.text_injective (oneWord : ip.OneWord) (same : first.text = second.text) : first = second := by
  have networkFree (network : ip.Network) : ' ' ∉ ip.networkText network := by
    have free := (oneWord (ip.networkAddress network)).1
    have digits : ' ' ∉ ofNat (ip.prefixlen network) := fun member => absurd (isDigit_of_mem_ofNat member) (by decide)
    simp [Ipaddress.networkText, free, digits]
  have hopFree (hop : NextHop ip) : ' ' ∉ hop.text := by
    cases hop with
    | self => simp [NextHop.text]
    | address host => exact (oneWord host).1
  have separated (route : Route ip) : Separated ' ' (route.communityText ++ route.asPathText) := by
    unfold Route.communityText Route.asPathText
    split <;> split <;> simp [Separated]
  rw [Route.text_eq, Route.text_eq] at same
  obtain ⟨networks, rest⟩ := append_cons_inj (networkFree _) (networkFree _) (List.append_cancel_left same)
  obtain ⟨hops, tails⟩ := append_separated_inj (hopFree _) (hopFree _) (separated first) (separated second)
    (List.append_cancel_left rest)
  obtain ⟨communities, paths⟩ := attributes_injective firstGood secondGood tight tails
  obtain ⟨asSeqs, asSets⟩ := asPathText_injective paths
  obtain ⟨network, hop, community, asSeq, asSet⟩ := first
  obtain ⟨network', hop', community', asSeq', asSet'⟩ := second
  simp only [Route.mk.injEq]
  exact ⟨networkText_injective networks, NextHop.text_injective hops, communities, asSeqs, asSets⟩

end Reading

theorem mem_joined {char : Char} {items : List Text} {item : Text} (member : item ∈ items) (inside : char ∈ item) :
    char ∈ joined items := by
  induction items with
  | nil => simp at member
  | cons first rest ih =>
      cases rest with
      | nil =>
          rw [joined_singleton]
          exact List.mem_singleton.mp member ▸ inside
      | cons second rest =>
          rw [joined_cons_cons]
          rcases List.mem_cons.mp member with rfl | later
          · exact List.mem_append_left _ inside
          · exact List.mem_append_right _ (List.mem_cons_of_mem _ (ih later))

theorem newline_mem_text (oneWord : ip.OneWord) (route : Route ip) :
    '\n' ∈ route.text ↔ ∃ item ∈ route.community, '\n' ∈ item := by
  have network : '\n' ∉ ip.networkText route.routePrefix := by
    have free := (oneWord (ip.networkAddress route.routePrefix)).2
    have digits : '\n' ∉ ofNat (ip.prefixlen route.routePrefix) :=
      fun member => absurd (isDigit_of_mem_ofNat member) (by decide)
    simp [Ipaddress.networkText, free, digits]
  have hop : '\n' ∉ route.nextHop.text := by
    cases route.nextHop with
    | self => simp [NextHop.text]
    | address host => exact (oneWord host).2
  have numbers (asns : List Int) : '\n' ∉ numbersText asns := by
    refine not_mem_intercalate (fun text member inside => ?_) (by decide)
    obtain ⟨number, _, rfl⟩ := List.mem_map.mp member
    exact (numeric_ofInt number).not_mem (by decide) inside
  have leading : '\n' ∉ leadingText route.asSeq := by
    unfold leadingText
    split <;> simp [numbers]
  have path : '\n' ∉ route.asPathText := by
    rw [Route.asPathText, pathText_eq]
    split
    · simp
    · split <;> simp [numbers, leading]
  have list : '\n' ∈ route.communityText ↔ ∃ item ∈ route.community, '\n' ∈ item := by
    unfold Route.communityText
    split
    · rename_i empty
      simp [empty]
    · constructor
      · intro member
        by_contra none
        push Not at none
        have outside : '\n' ∉ joined route.community := not_mem_intercalate none (by decide)
        simp [outside] at member
      · rintro ⟨item, inside, newline⟩
        simp [mem_joined inside newline]
  rw [Route.text_eq]
  simp [network, hop, path, list]

end Routes

section Objects

variable {ip : Ipaddress}

/-- `str(nlri)` -/
def NLRI.text (nlri : NLRI ip) : Except PyError Text := nlri.route.map Route.text

/-- The text is one line, and no other state of an NLRI has it. -/
def NLRI.Unambiguous (nlri : NLRI ip) : Prop :=
  ∀ text, nlri.text = .ok text → '\n' ∉ text ∧ ∀ other : NLRI ip, other.WellTyped → other.text = .ok text →
    other.routePrefix = nlri.routePrefix ∧ other.nextHop = nlri.nextHop ∧ other.community = nlri.community ∧
      other.asSeq = nlri.asSeq ∧ other.asSet = nlri.asSet

/-- No community has a newline, or a blank next to another community. -/
def NLRI.Separable (nlri : NLRI ip) : Prop :=
  (∀ item ∈ nlri.community.map Value.text, '\n' ∉ item) ∧ Tight (nlri.community.map Value.text)

variable {nlri : NLRI ip} {route : Route ip}

theorem Route.Describes.texts (describes : route.Describes nlri) : route.community = nlri.community.map Value.text := by
  rw [← describes.community, List.map_map]
  exact (List.map_id _).symm

theorem Route.Describes.unique {other : Route ip} (describes : route.Describes nlri) (otherDescribes : other.Describes nlri) :
    route = other := by
  have community := describes.texts.trans otherDescribes.texts.symm
  have asSeq := describes.asSeq.trans otherDescribes.asSeq.symm
  have asSet := describes.asSet.trans otherDescribes.asSet.symm
  cases route
  cases other
  rw [Route.mk.injEq]
  exact ⟨describes.routePrefix.trans otherDescribes.routePrefix.symm, describes.nextHop.trans otherDescribes.nextHop.symm,
    community, List.map_injective_iff.mpr (fun _ _ => Value.int.inj) asSeq,
    List.map_injective_iff.mpr (fun _ _ => Value.int.inj) asSet⟩

theorem Route.Describes.communities (describes : route.Describes nlri) (typed : nlri.WellTyped) :
    ∀ item ∈ route.community, Community item := by
  intro item member
  refine typed.community (.str item) ?_
  rw [← describes.community]
  exact List.mem_map_of_mem member

theorem unambiguous_iff (oneWord : ip.OneWord) (typed : nlri.WellTyped) : nlri.Unambiguous ↔ nlri.Separable := by
  obtain ⟨route, done, _⟩ := typed.route
  have describes := typed.describes done
  have good := describes.communities typed
  have shown : nlri.text = .ok route.text := by rw [NLRI.text, done]; rfl
  rw [NLRI.Separable, ← describes.texts]
  constructor
  · intro unambiguous
    obtain ⟨oneLine, unique⟩ := unambiguous route.text shown
    refine ⟨fun item member newline => oneLine ((newline_mem_text oneWord route).mpr ⟨item, member, newline⟩), ?_⟩
    by_contra loose
    obtain ⟨other, otherGood, same, different, empty⟩ := community_items.joined_shared good loose
    have otherTyped : ({ nlri with community := other.map .str } : NLRI ip).WellTyped := by
      refine ⟨fun value member => ?_, typed.asSeq, typed.asSet⟩
      obtain ⟨item, inside, rfl⟩ := List.mem_map.mp member
      exact otherGood item inside
    obtain ⟨otherRoute, otherDone, _⟩ := otherTyped.route
    have replaced : ({ route with community := other } : Route ip).Describes { nlri with community := other.map .str } :=
      ⟨describes.routePrefix, describes.nextHop, rfl, describes.asSeq, describes.asSet⟩
    have equal : otherRoute = { route with community := other } := (otherTyped.describes otherDone).unique replaced
    have sameText : otherRoute.text = route.text := by
      rw [equal, Route.text_eq, Route.text_eq, Route.communityText, Route.communityText, same, if_congr empty rfl rfl]
      rfl
    have shared : NLRI.text { nlri with community := other.map .str } = .ok route.text := by
      rw [NLRI.text, otherDone, ← sameText]
      rfl
    have communities := (unique _ otherTyped shared).2.2.1
    rw [← describes.community] at communities
    exact different (List.map_injective_iff.mpr (fun _ _ => Value.str.inj) communities)
  · rintro ⟨oneLine, tight⟩ text isText
    obtain rfl : route.text = text := Except.ok.inj (shown.symm.trans isText)
    refine ⟨fun newline => ?_, fun other otherTyped otherShown => ?_⟩
    · obtain ⟨item, member, inside⟩ := (newline_mem_text oneWord route).mp newline
      exact oneLine item member inside
    · obtain ⟨otherRoute, otherDone, _⟩ := otherTyped.route
      have otherDescribes := otherTyped.describes otherDone
      have same : route.text = otherRoute.text := by
        rw [NLRI.text, otherDone] at otherShown
        exact (Except.ok.inj otherShown).symm
      obtain rfl := Route.text_injective good (otherDescribes.communities otherTyped) tight oneWord same
      exact ⟨otherDescribes.routePrefix.symm.trans describes.routePrefix,
        otherDescribes.nextHop.symm.trans describes.nextHop, otherDescribes.community.symm.trans describes.community,
        otherDescribes.asSeq.symm.trans describes.asSeq, otherDescribes.asSet.symm.trans describes.asSet⟩

end Objects

section Example

theorem ipv4_oneWord : ipv4.OneWord := by
  intro address
  constructor <;> intro member <;> rcases Ipv4.mem_str member with dot | digit
  · simp at dot
  · simp at digit
  · simp at dot
  · simp at digit

def communityEntry (communities : List Text) : NLRI ipv4 where
  announce := true
  nextHop := .self
  community := communities.map .str
  asSeq := []
  asSet := []
  routePrefix := Ipv4.maskNat 3221225984 24

theorem communityEntry_typed {communities : List Text}
    (accepted : ∀ item ∈ communities, ':' ∈ item ∧ communityListCheck (.str item) = .ok (.str item)) :
    (communityEntry communities).WellTyped := by
  refine ⟨fun value member => ?_, by simp [communityEntry], by simp [communityEntry]⟩
  obtain ⟨item, inside, rfl⟩ := List.mem_map.mp member
  exact ⟨item, rfl, accepted item inside⟩

/-- A blank behind the first community or in front of the second one gives the same text. -/
theorem blank_between_communities : ¬ ∀ nlri : NLRI ipv4, nlri.WellTyped → nlri.Unambiguous := by
  intro all
  have unambiguous := all (communityEntry ["1:2 ".toList, "3:4".toList]) (communityEntry_typed (by decide))
  have shared := (unambiguous _ rfl).2 (communityEntry ["1:2".toList, " 3:4".toList]) (communityEntry_typed (by decide)) rfl
  exact absurd shared.2.2.1 (by decide)

theorem unambiguous_iff_example : (communityEntry ["1:2".toList, "3:4".toList]).Unambiguous := by
  refine (unambiguous_iff ipv4_oneWord (communityEntry_typed (by decide))).mpr ⟨by decide, ?_⟩
  intro before first second after same
  cases before with
  | nil =>
      cases same
      decide
  | cons item before => cases before <;> simp [communityEntry] at same

end Example

end ActiveBgp.Rib

import ActiveBgp.Bird.Details
import ActiveBgp.Python.Lines
import ActiveBgp.Data.Occurrences

namespace ActiveBgp.Bird

open ActiveBgp.Python ActiveBgp.Data CachingBufferedLineReader

namespace Route

/-- `^(?P<net>\S+)?\s+(?P<via>[^[]+)\[(?P<proto>\w+) (?P<since>[0-9:-]+)(?P<from> from \S+)?\](?P<primary> .)?(?P<info> .*)$` -/
def summaryRe : Regex :=
  .line [.optional (.named "net" 1 (!isSpace ·)), .many 1 isSpace, .named "via" 1 (· ≠ '['), .literal ['['],
    .named "proto" 1 isWord, .literal [' '], .named "since" 1 isSince,
    .optional (.group "from".toList (.append (.literal " from ".toList) (.many 1 (!isSpace ·)))), .literal [']'],
    .optional (.group "primary".toList (.append (.literal [' ']) (.char isInline))),
    .group "info".toList (.append (.literal [' ']) (.many 0 isInline))]

/-- `^\s+(?P<desc>[^:]+):(?P<data>.+)$` -/
def detailsRe : Regex := described [.many 1 isSpace] [.named "data" 1 isInline]

/-- The attributes that are numbers. -/
def isInt (desc : Text) : Bool := desc ∈ ["BGP.med".toList, "BGP.local_pref".toList]

/-- Any attribute that has no parser of its own is a text. -/
def detailsParsers (limit : Nat) (desc : Text) : Option (Reading (Text × Value)) :=
  if isInt desc then some do
    let (key, data) ← parseDescColonInt
    return (key, .int data)
  else some do
    let (key, data) ← parseDescColonStr limit
    return (key, .str data)

end Route

/-- The dictionary of a route; a field that is `None` is left out of it. -/
structure Route where
  net : Option Text
  via : Option Text
  proto : Option Text
  since : Option Text
  sender : Option Text
  primary : Option Text
  info : Option Text
  attributes : Dict Text Value

def Route.ofGroups (network : Option Text) (m : Groups) (attributes : Dict Text Value) : Route where
  net := network.map strip
  via := (m.group "via".toList).map strip
  proto := (m.group "proto".toList).map strip
  since := (m.group "since".toList).map strip
  sender := (m.group "from".toList).map strip
  primary := (m.group "primary".toList).map strip
  info := (m.group "info".toList).map strip
  attributes := attributes

/-- What is written to the output: JSON and newlines. -/
inductive Output where
  | json (route : Route)
  | newline

/-- The loop of `show_route`, which stands at `line`. -/
def readRoutes (limit : Nat) (returnJson : Bool) :
    Nat → Text → Option Text → List Route → List Output → Reading (List Route × List Output)
  | 0, _, _, _, _ => throw .outOfFuel
  | rounds + 1, line, network, routes, outfd => do
      if line = [] then
        return (routes, outfd)
      match Route.summaryRe.match? line with
      | none => throw (.assertion line)
      | some m =>
          let network := (m.group "net".toList).or network
          let attributes ← parseDescLines limit Route.detailsRe (Route.detailsParsers limit) (some Route.summaryRe)
          let rt := Route.ofGroups network m attributes
          let line ← readline
          let outfd := outfd ++ [.json rt] ++ if line = [] then [] else [.newline]
          readRoutes limit returnJson rounds line network (if returnJson then routes ++ [rt] else routes) outfd

def showRoute (limit : Nat) (returnJson : Bool) : Reading (List Route × List Output) := do
  let line ← readline
  readRoutes limit returnJson limit line none [] []

section Blocks

/-- A line of an attribute with the lines that continue it. -/
structure Attribute where
  line : Text
  continuations : List Text
deriving DecidableEq, Repr

namespace Attribute

def desc (attr : Attribute) : Option Text :=
  (Route.detailsRe.match? attr.line).bind (·.group "desc".toList)

def isInt (attr : Attribute) : Bool := attr.desc.any Route.isInt

def lines (attr : Attribute) : List Text := attr.line :: attr.continuations

/-- A number has no continuations, and a blank before it. -/
structure Formed (attr : Attribute) : Prop where
  details : (Route.detailsRe.match? attr.line).isSome = true
  noSummary : (Route.summaryRe.match? attr.line).isSome = false
  start : isContinuation attr.line = false
  number : attr.isInt = true → attr.continuations = [] ∧ IsNumber (afterColon attr.line)
  text : ∀ line ∈ attr.continuations, isContinuation line = true

def name (attr : Attribute) : Text := strip (beforeColon attr.line)

def value (attr : Attribute) : Value :=
  if attr.isInt then .int (number (afterColon attr.line))
  else .str (joined (afterColon attr.line) attr.continuations)

end Attribute

/-- A route of the listing. -/
structure Block where
  summary : Text
  attributes : List Attribute
deriving DecidableEq, Repr

namespace Block

def lines (block : Block) : List Text := block.summary :: block.attributes.flatMap Attribute.lines

def groups (block : Block) : Groups := (Route.summaryRe.match? block.summary).getD []

/-- The network that the summary itself names. -/
def network (block : Block) : Option Text := block.groups.group "net".toList

def entries (block : Block) : List (Text × Value) := block.attributes.map fun attr => (attr.name, attr.value)

structure Formed (block : Block) : Prop where
  matched : (Route.summaryRe.match? block.summary).isSome = true
  noTab : block.summary.head? ≠ some '\t'
  attributes : ∀ attr ∈ block.attributes, attr.Formed

end Block

end Blocks

section Attributes

variable {limit : Nat} {reader : CachingBufferedLineReader} {attr : Attribute} {rest : List Text}

theorem Attribute.Formed.described (formed : attr.Formed) : Described attr.line := by
  obtain ⟨m, matched⟩ := Option.isSome_iff_exists.mp formed.details
  obtain ⟨_, member⟩ := Regex.match?_mem matched
  exact (described_of_mem member).1

theorem Attribute.Formed.desc_eq (formed : attr.Formed) :
    ∃ desc tail, Route.detailsRe.match? attr.line = some (("desc".toList, desc) :: tail) ∧ attr.isInt = Route.isInt desc := by
  obtain ⟨m, matched⟩ := Option.isSome_iff_exists.mp formed.details
  obtain ⟨_, member⟩ := Regex.match?_mem matched
  obtain ⟨_, desc, tail, rfl, _⟩ := described_of_mem member
  exact ⟨desc, tail, matched, by simp [Attribute.isInt, Attribute.desc, matched, Groups.group]⟩

theorem detailsParsers_ok (formed : attr.Formed) {desc : Text} (kind : attr.isInt = Route.isInt desc)
    (pending : reader.Pending (attr.lines ++ rest)) (isLine : ∀ line ∈ attr.lines ++ rest, IsLine line)
    (stops : ∀ line ∈ rest.head?, isContinuation line = false) (enough : attr.lines.length ≤ limit) :
    ∃ parser after, Route.detailsParsers limit desc = some parser ∧
      parser reader = .ok ((attr.name, attr.value), after) ∧ after.Pending rest := by
  cases isInt : attr.isInt with
  | true =>
      obtain ⟨alone, isNumber⟩ := formed.number isInt
      rw [Attribute.lines, alone] at pending
      obtain ⟨after, returns, left⟩ := parseDescColonInt_ok pending formed.described isNumber
      refine ⟨_, after, if_pos (kind ▸ isInt), bind_ok_iff.mpr ⟨_, after, returns, ?_⟩, left⟩
      rw [Attribute.value, if_pos isInt]
      rfl
  | false =>
      have conts : (attr.continuations ++ rest).takeWhile isContinuation = attr.continuations ∧
          (attr.continuations ++ rest).dropWhile isContinuation = rest := by
        rw [List.takeWhile_append_of_pos formed.text, List.dropWhile_append_of_pos formed.text]
        cases rest with
        | nil => simp
        | cons line more => simp [stops line rfl]
      have short : ((attr.continuations ++ rest).takeWhile isContinuation).length < limit := by
        rw [Attribute.lines, List.length_cons] at enough
        rw [conts.1]
        omega
      rw [Attribute.lines, List.cons_append] at pending isLine
      obtain ⟨after, returns, left⟩ := parseDescColonStr_ok pending formed.described isLine short
      rw [conts.1] at returns
      rw [conts.2] at left
      refine ⟨_, after, if_neg (by simp [← kind, isInt]), bind_ok_iff.mpr ⟨_, after, returns, ?_⟩, left⟩
      rw [Attribute.value, if_neg (by simp [isInt])]
      rfl

/-- What may follow the attributes of a block: nothing or a summary. -/
def Ends (rest : List Text) : Prop :=
  ∀ line ∈ rest.head?, (Route.summaryRe.match? line).isSome = true ∧ isContinuation line = false

theorem stops_attributes {attrs : List Attribute} (formed : ∀ attr ∈ attrs, attr.Formed) (ends : Ends rest) :
    ∀ line ∈ (attrs.flatMap Attribute.lines ++ rest).head?, isContinuation line = false := by
  cases attrs with
  | nil => exact fun line member => (ends line member).2
  | cons attr more =>
      intro line member
      obtain rfl : attr.line = line := by simpa [Attribute.lines] using member
      exact (formed attr List.mem_cons_self).start

theorem readDescLines_attributes {attrs : List Attribute} (formed : ∀ attr ∈ attrs, attr.Formed) (ends : Ends rest)
    (isLine : ∀ line ∈ attrs.flatMap Attribute.lines ++ rest, IsLine line) {rounds : Nat} (enough : attrs.length < rounds)
    (short : (attrs.flatMap Attribute.lines).length ≤ limit) (result : Dict Text Value)
    (holding : reader.Holding (attrs.flatMap Attribute.lines ++ rest)) :
    ∃ after, readDescLines Route.detailsRe (Route.detailsParsers limit) (some Route.summaryRe) rounds
        ((attrs.flatMap Attribute.lines ++ rest).headD []) result reader =
          .ok (attrs.foldl (fun dict attr => dict.set attr.name attr.value) result, after) ∧
      after.Pending rest := by
  induction attrs generalizing rounds result reader with
  | nil =>
      obtain ⟨rounds, rfl⟩ := Nat.exists_eq_succ_of_ne_zero (Nat.ne_of_gt enough)
      have stop : (([] : List Attribute).flatMap Attribute.lines ++ rest).headD [] = [] ∨
          ((some Route.summaryRe).bind (·.match? ((([] : List Attribute).flatMap Attribute.lines ++ rest).headD []))).isSome := by
        cases rest with
        | nil => exact .inl rfl
        | cons line more => exact .inr (ends line rfl).1
      refine ⟨{ reader with read := false }, ?_, holding.rewind⟩
      rw [readDescLines, if_pos stop]
      rfl
  | cons attr more ih =>
      obtain ⟨now, later⟩ := List.forall_mem_cons.mp formed
      obtain ⟨rounds, rfl⟩ := Nat.exists_eq_succ_of_ne_zero (Nat.ne_of_gt (Nat.zero_lt_of_lt enough))
      rw [List.flatMap_cons, List.append_assoc] at holding isLine ⊢
      rw [List.flatMap_cons, List.length_append] at short
      have nonempty : attr.line ≠ [] := fun empty => holding.1 (empty ▸ by simp [Attribute.lines])
      have fits : attr.lines.length ≤ limit := by omega
      obtain ⟨desc, tail, matched, kind⟩ := now.desc_eq
      obtain ⟨parser, middle, parses, returns, left⟩ := detailsParsers_ok now kind holding.rewind isLine
        (stops_attributes later ends) fits
      obtain ⟨next, read, held⟩ := left.readline
      obtain ⟨after, done, remains⟩ := ih later (fun line member => isLine line (List.mem_append_right _ member))
        (by simpa using enough) (by omega) (result.set attr.name attr.value) held
      refine ⟨after, ?_, remains⟩
      change readDescLines _ _ _ (rounds + 1) attr.line result reader = _
      rw [readDescLines, if_neg (by simp [nonempty, now.noSummary]), matched]
      refine bind_ok_iff.mpr ⟨desc, reader, group_head, bind_ok_iff.mpr ⟨(), _, rfl, ?_⟩⟩
      rw [parses]
      exact bind_ok_iff.mpr ⟨_, middle, returns, bind_ok_iff.mpr ⟨_, next, read, done⟩⟩

end Attributes

section Listings

variable {limit : Nat} {reader : CachingBufferedLineReader} {blocks : List Block}

/-- The network of the block, or the nearest one before it. -/
def nearestNetwork (blocks : List Block) (index : Nat) : Option Text :=
  ((blocks.take (index + 1)).filterMap Block.network).getLast?

/-- The routes of the blocks after one of the network. -/
def routesAfter : Option Text → List Block → List Route
  | _, [] => []
  | network, block :: rest =>
      Route.ofGroups (block.network.or network) block.groups (lasts block.entries) ::
        routesAfter (block.network.or network) rest

theorem length_routesAfter (network : Option Text) (blocks : List Block) :
    (routesAfter network blocks).length = blocks.length := by
  induction blocks generalizing network with
  | nil => rfl
  | cons block rest ih => simp [routesAfter, ih]

theorem getElem?_routesAfter {network : Option Text} {index : Nat} {block : Block} (here : blocks[index]? = some block) :
    (routesAfter network blocks)[index]? =
      some (Route.ofGroups ((nearestNetwork blocks index).or network) block.groups (lasts block.entries)) := by
  induction blocks generalizing network index with
  | nil => simp at here
  | cons first rest ih =>
      cases index with
      | zero =>
          cases here
          cases own : block.network <;> simp [routesAfter, nearestNetwork, own]
      | succ index =>
          have later : (routesAfter (first.network.or network) rest)[index]? = _ := ih here
          have nearest : nearestNetwork (first :: rest) (index + 1) = (nearestNetwork rest index).or first.network := by
            rw [nearestNetwork, List.take_succ_cons, nearestNetwork]
            cases own : first.network with
            | none => rw [List.filterMap_cons_none own, Option.or_none]
            | some text =>
                rw [List.filterMap_cons_some own, List.getLast?_cons]
                cases ((rest.take (index + 1)).filterMap Block.network).getLast? <;> rfl
          rw [nearest, Option.or_assoc]
          exact later

theorem ends_blocks (formed : ∀ block ∈ blocks, block.Formed) : Ends (blocks.flatMap Block.lines) := by
  cases blocks with
  | nil => exact nofun
  | cons block rest =>
      intro line member
      obtain rfl : block.summary = line := by simpa [Block.lines] using member
      have now := formed block List.mem_cons_self
      refine ⟨now.matched, ?_⟩
      have noTab := now.noTab
      cases start : block.summary with
      | nil => rfl
      | cons char more =>
          rw [start, List.head?_cons] at noTab
          have different : '\t' ≠ char := fun same => noTab (congrArg some same.symm)
          simp [isContinuation, List.cons_prefix_cons, different]

theorem length_le_attributes (attrs : List Attribute) : attrs.length ≤ (attrs.flatMap Attribute.lines).length := by
  induction attrs with
  | nil => rfl
  | cons attr more ih =>
      simp only [List.flatMap_cons, Attribute.lines, List.length_append, List.length_cons]
      omega

theorem parseDescLines_block {block : Block} {rest : List Text} (formed : block.Formed) (ends : Ends rest)
    (isLine : ∀ line ∈ block.attributes.flatMap Attribute.lines ++ rest, IsLine line)
    (short : (block.attributes.flatMap Attribute.lines).length < limit)
    (pending : reader.Pending (block.attributes.flatMap Attribute.lines ++ rest)) :
    ∃ after, parseDescLines limit Route.detailsRe (Route.detailsParsers limit) (some Route.summaryRe) reader =
      .ok (lasts block.entries, after) ∧ after.Pending rest := by
  have few := length_le_attributes block.attributes
  obtain ⟨middle, read, holding⟩ := pending.readline
  obtain ⟨after, returns, left⟩ := readDescLines_attributes formed.attributes ends isLine (Nat.lt_of_le_of_lt few short)
    (Nat.le_of_lt short) .empty holding
  refine ⟨after, bind_ok_iff.mpr ⟨_, middle, read, ?_⟩, left⟩
  rw [returns, lasts, Block.entries, List.foldl_map]

theorem readRoutes_blocks (formed : ∀ block ∈ blocks, block.Formed)
    (isLine : ∀ line ∈ blocks.flatMap Block.lines, IsLine line) (short : (blocks.flatMap Block.lines).length < limit)
    (returnJson : Bool) {rounds : Nat} (enough : blocks.length < rounds) (network : Option Text) (routes : List Route)
    (outfd : List Output) (holding : reader.Holding (blocks.flatMap Block.lines)) :
    ∃ after, readRoutes limit returnJson rounds ((blocks.flatMap Block.lines).headD []) network routes outfd reader =
        .ok ((routes ++ (if returnJson then routesAfter network blocks else []),
          outfd ++ ((routesAfter network blocks).map Output.json).intersperse .newline), after) ∧
      after.Pending [] := by
  induction blocks generalizing rounds network routes outfd reader with
  | nil =>
      obtain ⟨rounds, rfl⟩ := Nat.exists_eq_succ_of_ne_zero (Nat.ne_of_gt enough)
      refine ⟨reader, ?_, holding.pending⟩
      change readRoutes limit returnJson (rounds + 1) [] network routes outfd reader = _
      rw [readRoutes, if_pos rfl]
      simp [routesAfter]
  | cons block rest ih =>
      obtain ⟨now, later⟩ := List.forall_mem_cons.mp formed
      obtain ⟨rounds, rfl⟩ := Nat.exists_eq_succ_of_ne_zero (Nat.ne_of_gt (Nat.zero_lt_of_lt enough))
      have split : (block :: rest).flatMap Block.lines =
          block.summary :: (block.attributes.flatMap Attribute.lines ++ rest.flatMap Block.lines) := by
        simp [Block.lines]
      rw [split] at holding isLine short ⊢
      rw [List.length_cons, List.length_append] at short
      have nonempty : block.summary ≠ [] := fun empty => holding.1 (empty ▸ List.mem_cons_self)
      obtain ⟨m, matched⟩ := Option.isSome_iff_exists.mp now.matched
      have groups : block.groups = m := by rw [Block.groups, matched, Option.getD_some]
      have own : block.network = m.group "net".toList := by rw [Block.network, groups]
      have shortBlock : (block.attributes.flatMap Attribute.lines).length < limit := by omega
      have shortRest : (rest.flatMap Block.lines).length < limit := by omega
      obtain ⟨middle, parsed, left⟩ := parseDescLines_block now (ends_blocks later)
        (fun line member => isLine line (List.mem_cons_of_mem _ member)) shortBlock holding.pending
      obtain ⟨next, read, held⟩ := left.readline
      obtain ⟨after, done, remains⟩ := ih later
        (fun line member => isLine line (List.mem_cons_of_mem _ (List.mem_append_right _ member))) shortRest
        (by simpa using enough) (block.network.or network) _ _ held
      refine ⟨after, ?_, remains⟩
      change readRoutes limit returnJson (rounds + 1) block.summary network routes outfd reader = _
      rw [readRoutes, if_neg nonempty, matched]
      refine bind_ok_iff.mpr ⟨_, middle, parsed, bind_ok_iff.mpr ⟨_, next, read, ?_⟩⟩
      rw [← own, ← groups]
      refine done.trans ?_
      cases rest with
      | nil => cases returnJson <;> simp [routesAfter]
      | cons other others =>
          have further : other.summary ≠ [] := fun empty => holding.1 (by simp [Block.lines, empty])
          cases returnJson <;> simp [routesAfter, Block.lines, further]

theorem Block.strip_network {block : Block} {network : Text} (own : block.network = some network) : strip network = network := by
  cases matched : Route.summaryRe.match? block.summary with
  | none =>
      rw [Block.network, Block.groups, matched] at own
      cases own
  | some m =>
      rw [Block.network, Block.groups, matched, Option.getD_some] at own
      obtain ⟨rest, member⟩ := Regex.match?_mem matched
      obtain ⟨before, middle, after, first, others, rfl⟩ := Regex.mem_run_line_cons.mp member
      have absent : Groups.group after "net".toList = none :=
        Regex.group_eq_none fun entry inside same => by
          have named := Regex.mem_names_of_run others entry inside
          rw [same] at named
          revert named
          decide
      rcases Regex.mem_run_optional.mp first with taken | ⟨rfl, _⟩
      · obtain ⟨text, rfl, _, _, ink⟩ := Regex.mem_run_named.mp taken
        obtain rfl : text = network := by simpa [Groups.group] using own
        exact strip_eq_self fun char inside => by simpa using ink char inside
      · rw [List.nil_append, absent] at own
        cases own

theorem length_le_blocks (blocks : List Block) : blocks.length ≤ (blocks.flatMap Block.lines).length := by
  induction blocks with
  | nil => rfl
  | cons block rest ih =>
      simp only [List.flatMap_cons, Block.lines, List.length_append, List.length_cons]
      omega

theorem nearestNetwork_exists (first : ∀ block ∈ blocks.head?, block.network ≠ none) {index : Nat} {block : Block}
    (here : blocks[index]? = some block) : ∃ network, nearestNetwork blocks index = some network := by
  cases blocks with
  | nil => simp at here
  | cons front rest =>
      obtain ⟨network, own⟩ := Option.ne_none_iff_exists'.mp (first front rfl)
      rw [nearestNetwork, List.take_succ_cons, List.filterMap_cons_some own, List.getLast?_cons]
      exact ⟨_, rfl⟩

theorem showRoute_returns {text : Text} (listing : Text.splitLines text = blocks.flatMap Block.lines)
    (formed : ∀ block ∈ blocks, block.Formed) (enough : (Text.splitLines text).length < limit) :
    ∃ after, showRoute limit true (.init (Text.splitLines text)) =
        .ok ((routesAfter none blocks, ((routesAfter none blocks).map Output.json).intersperse .newline), after) ∧
      after.fd = [] := by
  have isLine : ∀ line ∈ blocks.flatMap Block.lines, IsLine line := fun line member =>
    (Text.line_of_mem_splitLines (listing ▸ member)).2
  have nonempty : [] ∉ Text.splitLines text := fun member => (Text.line_of_mem_splitLines member).1 rfl
  obtain ⟨middle, read, holding⟩ := (pending_init nonempty).readline
  rw [listing] at holding enough read
  obtain ⟨after, done, left⟩ := readRoutes_blocks formed isLine enough true
    (Nat.lt_of_le_of_lt (length_le_blocks blocks) enough) none [] [] holding
  rw [List.nil_append, List.nil_append] at done
  exact ⟨after, bind_ok_iff.mpr ⟨_, middle, listing ▸ read, done⟩, left.fd_nil⟩

/-- Every route of the listing is returned with its own attributes and the nearest network. -/
theorem showRoute_blocks {text : Text} (listing : Text.splitLines text = blocks.flatMap Block.lines)
    (formed : ∀ block ∈ blocks, block.Formed) (first : ∀ block ∈ blocks.head?, block.network ≠ none)
    (enough : (Text.splitLines text).length < limit) :
    ∃ routes after, showRoute limit true (.init (Text.splitLines text)) =
        .ok ((routes, (routes.map Output.json).intersperse .newline), after) ∧
      after.fd = [] ∧ routes.length = blocks.length ∧
      ∀ index block, blocks[index]? = some block → ∃ route network, routes[index]? = some route ∧
        nearestNetwork blocks index = some network ∧ route.net = some network ∧
        route = Route.ofGroups (some network) block.groups route.attributes ∧
        ∀ name value, route.attributes.get? name = some value ↔ LastEntry block.entries name value := by
  obtain ⟨after, done, atEnd⟩ := showRoute_returns listing formed enough
  refine ⟨routesAfter none blocks, after, done, atEnd, length_routesAfter none blocks, fun index block here => ?_⟩
  obtain ⟨network, nearest⟩ := nearestNetwork_exists first here
  have route : (routesAfter none blocks)[index]? = _ := getElem?_routesAfter here
  rw [nearest, Option.some_or] at route
  refine ⟨_, network, route, nearest, ?_, rfl, fun name value => get?_lasts⟩
  obtain ⟨own, _, named⟩ := List.mem_filterMap.mp (List.mem_of_mem_getLast? nearest)
  exact congrArg some (Block.strip_network named)

end Listings

section Example

def exampleBlocks : List Block :=
  [⟨"1/8 via x [u 1] i\n".toList,
    [⟨"\tA: b\n".toList, ["\t\tc\n".toList]⟩, ⟨"\tBGP.med: 5\n".toList, []⟩, ⟨"\tA: d\n".toList, []⟩]⟩,
   ⟨" via y [u 2] * j\n".toList, [⟨"\tA: e\n".toList, []⟩]⟩]

theorem exampleBlocks_formed : ∀ block ∈ exampleBlocks, block.Formed := by
  have text (line : Text) (continuations : List Text) (shape : (Route.detailsRe.match? line).isSome = true ∧
      (Route.summaryRe.match? line).isSome = false ∧ isContinuation line = false ∧
      (⟨line, continuations⟩ : Attribute).isInt = false ∧ ∀ line ∈ continuations, isContinuation line = true) :
      Attribute.Formed ⟨line, continuations⟩ :=
    ⟨shape.1, shape.2.1, shape.2.2.1, by simp [shape.2.2.2.1], shape.2.2.2.2⟩
  have med : Attribute.Formed ⟨"\tBGP.med: 5\n".toList, []⟩ :=
    ⟨by decide +kernel, by decide +kernel, by decide,
      fun _ => ⟨rfl, [' '], ['5'], ['\n'], by decide +kernel, ⟨List.cons_ne_nil _ _, List.forall_mem_singleton.mpr rfl⟩,
        ⟨List.cons_ne_nil _ _, List.forall_mem_singleton.mpr rfl⟩, .inr rfl⟩, by simp⟩
  simp only [exampleBlocks, List.forall_mem_cons, List.not_mem_nil, false_imp_iff, implies_true, and_true]
  refine ⟨⟨by decide +kernel, by decide, ?_⟩, ⟨by decide +kernel, by decide, ?_⟩⟩
  · simp only [List.forall_mem_cons, List.not_mem_nil, false_imp_iff, implies_true, and_true]
    exact ⟨text _ _ (by decide +kernel), med, text _ _ (by decide +kernel)⟩
  · simp only [List.forall_mem_cons, List.not_mem_nil, false_imp_iff, implies_true, and_true]
    exact text _ _ (by decide +kernel)

theorem showRoute_blocks_example :
    ∃ routes after, showRoute 8 true (.init (Text.splitLines (exampleBlocks.flatMap Block.lines).flatten)) =
        .ok ((routes, (routes.map Output.json).intersperse .newline), after) ∧
      after.fd = [] ∧ routes.length = exampleBlocks.length ∧
      ∀ index block, exampleBlocks[index]? = some block → ∃ route network, routes[index]? = some route ∧
        nearestNetwork exampleBlocks index = some network ∧ route.net = some network ∧
        route = Route.ofGroups (some network) block.groups route.attributes ∧
        ∀ name value, route.attributes.get? name = some value ↔ LastEntry block.entries name value :=
  showRoute_blocks (by decide +kernel) exampleBlocks_formed (by decide +kernel) (by decide +kernel)

end Example

end ActiveBgp.Bird

import ActiveBgp.Bird.Protocols

namespace ActiveBgp.Bird

open ActiveBgp.Python CachingBufferedLineReader

section Inversion

variable {reader after : CachingBufferedLineReader}

theorem group_ok_iff {matched : Option Groups} {name : String} {text : Text} :
    group matched name reader = .ok (text, after) ↔
      after = reader ∧ ∃ groups, matched = some groups ∧ groups.group name.toList = some text := by
  rw [group]
  cases found : matched.bind (·.group name.toList) with
  | none =>
      simp only [throw_reading, reduceCtorEq, false_iff, not_and]
      rintro - ⟨groups, rfl, named⟩
      rw [Option.bind_some, named] at found
      cases found
  | some value =>
      obtain ⟨groups, rfl, named⟩ := Option.bind_eq_some_iff.mp found
      simp [named, eq_comm, and_comm]

theorem int_ok_iff {text : Text} {value : Int} :
    int text reader = .ok (value, after) ↔ after = reader ∧ Text.toInt? text = some value := by
  rw [int]
  cases Text.toInt? text <;> simp [eq_comm, and_comm]

theorem Pending.readline_eq {lines : List Text} {line : Text} (pending : reader.Pending lines)
    (returns : readline reader = .ok (line, after)) : line = lines.headD [] ∧ after.Holding lines := by
  obtain ⟨next, read, holding⟩ := pending.readline
  rw [read] at returns
  cases returns
  exact ⟨rfl, holding⟩

end Inversion

section Regions

/-- The line starts with a blank. -/
def Indented (line : Text) : Prop := ∃ char ∈ line.head?, isSpace char = true

def Outside (rest : List Text) : Prop := ∀ line ∈ rest.head?, ¬ Indented line

/-- A parser at `line` that returns has read some more lines of its region, and returns the key. -/
def Confined {ν : Type} (parser : Reading (Text × ν)) (line key : Text) : Prop :=
  ∀ region rest reader result after, (∀ line' ∈ line :: region ++ rest, IsLine line') → Outside rest →
    reader.Pending (line :: region ++ rest) → parser reader = .ok (result, after) →
    result.1 = key ∧ ∃ left, left <:+ region ∧ after.Pending (left ++ rest)

variable {ν : Type} {region rest : List Text} {reader after : CachingBufferedLineReader} {line : Text}

theorem readline_indented (outside : Outside rest) (pending : reader.Pending (region ++ rest))
    (returns : readline reader = .ok (line, after)) (indented : Indented line) :
    ∃ more, region = line :: more ∧ after.Holding (line :: more ++ rest) := by
  obtain ⟨rfl, holding⟩ := Pending.readline_eq pending returns
  cases region with
  | nil =>
      cases rest with
      | nil => obtain ⟨char, member, _⟩ := indented; cases member
      | cons other others => exact absurd indented (outside other rfl)
  | cons first more => exact ⟨more, rfl, holding⟩

theorem isLine_left {left : List Text} (isLine : ∀ line' ∈ line :: region ++ rest, IsLine line') (suffix : left <:+ region) :
    ∀ line' ∈ left ++ rest, IsLine line' := by
  intro other member
  refine isLine other ?_
  rcases List.mem_append.mp member with inside | beyond
  · exact List.mem_append_left rest (List.mem_cons_of_mem line (suffix.subset inside))
  · exact List.mem_append_right _ beyond

theorem indented_of_isContinuation (tabs : isContinuation line = true) : Indented line := by
  rw [isContinuation, decide_eq_true_iff] at tabs
  obtain ⟨more, rfl⟩ := tabs
  exact ⟨'\t', rfl, by decide⟩

theorem dropWhile_region (outside : Outside rest) :
    (region ++ rest).dropWhile isContinuation = region.dropWhile isContinuation ++ rest := by
  rw [List.dropWhile_append]
  split
  · rename_i all
    rw [List.isEmpty_iff.mp all, List.nil_append]
    cases rest with
    | nil => rfl
    | cons first more =>
        exact List.dropWhile_cons_of_neg fun tabs => outside first rfl (indented_of_isContinuation tabs)
  · rfl

end Regions

section Descriptions

variable {text rest : Text} {groups : Groups}

theorem mem_run_replicate {accepts : Char → Bool} (count : Nat) {more : List Regex} :
    (groups, rest) ∈ (Regex.line (List.replicate count (.char accepts) ++ more)).run text ↔
      ∃ taken middle, text = taken ++ middle ∧ taken.length = count ∧ (∀ char ∈ taken, accepts char = true) ∧
        (groups, rest) ∈ (Regex.line more).run middle := by
  induction count generalizing text groups with
  | zero => simp
  | succ count ih =>
      rw [List.replicate_succ, List.cons_append, Regex.mem_run_line_cons]
      constructor
      · rintro ⟨_, _, after, one, others, rfl⟩
        obtain ⟨rfl, first, rfl, accepted⟩ := Regex.mem_run_char.mp one
        obtain ⟨taken, middle, rfl, rfl, all, later⟩ := ih.mp others
        exact ⟨first :: taken, middle, rfl, rfl, List.forall_mem_cons.mpr ⟨accepted, all⟩, later⟩
      · rintro ⟨taken, middle, rfl, length, all, later⟩
        obtain ⟨first, taken, rfl⟩ := List.exists_cons_of_length_eq_add_one length
        obtain ⟨accepted, all⟩ := List.forall_mem_cons.mp all
        exact ⟨[], taken ++ middle, groups, Regex.mem_run_char.mpr ⟨rfl, first, rfl, accepted⟩,
          ih.mpr ⟨taken, middle, rfl, by simpa using length, all, later⟩, rfl⟩

/-- A detail is an indented line with a description before its colon. -/
theorem described_of_replicate {count : Nat} (positive : 0 < count) {more : List Regex}
    (matched : (groups, rest) ∈ (described (List.replicate count (.char isSpace)) more).run text) :
    Described text ∧ Indented text ∧ ∃ desc tail, groups = ("desc".toList, desc) :: tail ∧
      strip desc = strip (beforeColon text) := by
  obtain ⟨spaces, middle, rfl, rfl, blank, later⟩ := (mem_run_replicate count).mp matched
  simp only [Regex.mem_run_line_cons, Regex.mem_run_named, Regex.mem_run_literal] at later
  obtain ⟨_, _, _, ⟨desc, rfl, rfl, some_desc, free⟩, ⟨_, data, _, ⟨rfl, rfl⟩, _, rfl⟩, rfl⟩ := later
  have whole : spaces ++ (desc ++ ([':'] ++ data)) = (spaces ++ desc) ++ ':' :: data := by simp
  have before := beforeColon_append (beforeColon_described blank free) data
  have some_space : spaces ≠ [] := List.ne_nil_of_length_pos positive
  rw [whole, before]
  refine ⟨⟨⟨data, by rw [before]⟩, spaces, desc, before, some_space, blank, List.ne_nil_of_length_pos some_desc⟩, ?_,
    desc, _, rfl, (strip_append blank desc).symm⟩
  obtain ⟨char, more, rfl⟩ := List.exists_cons_of_ne_nil some_space
  exact ⟨char, rfl, blank char List.mem_cons_self⟩

end Descriptions

section Parsers

open Protocol

variable {line : Text} {limit : Nat}

theorem readContinuations_enough {reader : CachingBufferedLineReader} {lines : List Text} (pending : reader.Pending lines)
    {rounds : Nat} {before : List Text} {result : List Text × CachingBufferedLineReader}
    (returns : readContinuations rounds before reader = .ok result) : (lines.takeWhile isContinuation).length < rounds := by
  induction rounds generalizing before reader lines with
  | zero => cases returns
  | succ rounds ih =>
      rw [readContinuations, bind_ok_iff] at returns
      obtain ⟨line, middle, read, returns⟩ := returns
      obtain ⟨rfl, holding⟩ := Pending.readline_eq pending read
      cases lines with
      | nil => exact Nat.zero_lt_succ rounds
      | cons first more =>
          have nonempty : first ≠ [] := fun empty => pending.1 (empty ▸ List.mem_cons_self)
          by_cases tabs : isContinuation first = true
          · rw [List.headD_cons, if_pos ⟨nonempty, by simpa [isContinuation] using tabs⟩] at returns
            rw [List.takeWhile_cons_of_pos tabs]
            exact Nat.succ_lt_succ (ih holding.pending returns)
          · rw [List.takeWhile_cons_of_neg tabs]
            exact Nat.zero_lt_succ rounds

theorem confined_str (described : Described line) : Confined (parseDescColonStr limit) line (strip (beforeColon line)) := by
  intro region rest reader result after isLine outside pending returns
  have short : ((region ++ rest).takeWhile isContinuation).length < limit := by
    rw [parseDescColonStr, bind_ok_iff] at returns
    obtain ⟨first, middle, read, returns⟩ := returns
    obtain ⟨_, holding⟩ := Pending.readline_eq pending read
    obtain ⟨lines, next, conts, _⟩ := bind_ok_iff.mp returns
    exact readContinuations_enough holding.pending conts
  rw [List.cons_append] at pending isLine
  obtain ⟨next, same, left⟩ := parseDescColonStr_ok pending described isLine short
  rw [same] at returns
  cases returns
  rw [dropWhile_region outside] at left
  exact ⟨rfl, _, List.dropWhile_suffix _, left⟩

theorem confined_int (line : Text) : Confined parseDescColonInt line (strip (beforeColon line)) := by
  intro region rest reader result after isLine outside pending returns
  simp only [parseDescColonInt, bind_ok_iff, group_ok_iff, int_ok_iff] at returns
  obtain ⟨first, middle, read, desc, _, ⟨rfl, groups, matched, named⟩, data, _, ⟨rfl, _⟩, value, _, ⟨rfl, _⟩, same⟩ := returns
  cases same
  obtain ⟨rfl, holding⟩ := Pending.readline_eq pending read
  obtain ⟨_, member⟩ := Regex.match?_mem matched
  obtain ⟨_, desc', tail, rfl, same, _⟩ := described_of_mem member
  obtain rfl : desc' = desc := by simpa [Groups.group] using named
  exact ⟨same, region, List.suffix_refl region, holding.pending⟩

theorem Confined.map {ν ν' : Type} {parser : Reading (Text × ν)} {key : Text} (confined : Confined parser line key)
    (change : ν → ν') : Confined (parser >>= fun result => pure (result.1, change result.2)) line key := by
  intro region rest reader result after isLine outside pending returns
  obtain ⟨value, middle, parsed, same⟩ := bind_ok_iff.mp returns
  cases same
  exact confined region rest reader value _ isLine outside pending parsed

theorem indented_of_char {text rest : Text} {groups : Groups} {more : List Regex}
    (matched : (groups, rest) ∈ (Regex.line (.char isSpace :: more)).run text) : Indented text := by
  obtain ⟨_, _, _, one, _⟩ := Regex.mem_run_line_cons.mp matched
  obtain ⟨_, first, rfl, blank⟩ := Regex.mem_run_char.mp one
  exact ⟨first, rfl, blank⟩

theorem notColon_word {char : Char} (word : isWord char = true) : notColon char = true := by
  rw [notColon, decide_eq_true_iff]
  rintro rfl
  exact absurd word (by decide)

theorem confined_routes (line : Text) : Confined parseProtoRoutes line (strip (beforeColon line)) := by
  intro region rest reader result after isLine outside pending returns
  simp only [parseProtoRoutes, bind_ok_iff, group_ok_iff, int_ok_iff] at returns
  obtain ⟨first, held, read, desc, held, ⟨rfl, groups, matched, named⟩, _, held, ⟨rfl, _⟩, _, held, ⟨rfl, _⟩, _, held,
    ⟨rfl, _⟩, _, held, ⟨rfl, _⟩, returns⟩ := returns
  have done : result.1 = strip desc ∧ after = held := by
    cases preferred : (routesRe.match? first).bind fun groups => groups.group "preferred".toList with
    | none =>
        rw [preferred] at returns
        cases returns
    | some data =>
        rw [preferred] at returns
        obtain ⟨_, _, number, same⟩ := bind_ok_iff.mp returns
        obtain ⟨rfl, _⟩ := int_ok_iff.mp number
        cases same
        exact ⟨rfl, rfl⟩
  obtain ⟨key, rfl⟩ := done
  obtain ⟨current, holding⟩ := Pending.readline_eq pending read
  obtain rfl : line = first := current.symm
  refine ⟨key.trans ?_, region, List.suffix_refl region, holding.pending⟩
  obtain ⟨_, member⟩ := Regex.match?_mem matched
  obtain ⟨spaces, middle, whole, _, blank, later⟩ := (mem_run_replicate 2).mp member
  simp only [Regex.mem_run_line_cons, Regex.mem_run_named, Regex.mem_run_literal] at later
  obtain ⟨_, _, _, ⟨desc', rfl, rfl, _, word⟩, ⟨_, data, _, ⟨rfl, rfl⟩, _⟩, rfl⟩ := later
  obtain rfl : desc' = desc := by simpa [Groups.group] using named
  have free : ∀ char ∈ desc', notColon char = true := fun char member => notColon_word (word char member)
  have line_eq : line = (spaces ++ desc') ++ ':' :: data := by
    rw [List.append_assoc]
    exact whole
  rw [line_eq, beforeColon_append (beforeColon_described blank free), strip_append blank]

theorem readCounts_confined {region rest : List Text} {reader middle after : CachingBufferedLineReader}
    {counts counts' : Dict Text Groups} (outside : Outside rest) (pending : reader.Pending (region ++ rest))
    (read : readline reader = .ok (line, middle))
    (returns : setDescValues counts (countsRe.match? line) middle = .ok (counts', after)) :
    ∃ left, left <:+ region ∧ after.Pending (left ++ rest) := by
  simp only [setDescValues, bind_ok_iff, group_ok_iff] at returns
  obtain ⟨desc, _, ⟨rfl, groups, matched, _⟩, same⟩ := returns
  cases same
  obtain ⟨_, member⟩ := Regex.match?_mem matched
  obtain ⟨more, rfl, holding⟩ := readline_indented outside pending read (indented_of_char member)
  exact ⟨more, List.suffix_cons line more, holding.pending⟩

theorem confined_stats (line : Text) : Confined parseProtoRouteStats line "route_change_stats".toList := by
  intro region rest reader result after isLine outside pending returns
  rw [parseProtoRouteStats, bind_ok_iff] at returns
  obtain ⟨first, middle, read, returns⟩ := returns
  obtain ⟨_, holding⟩ := Pending.readline_eq pending read
  split at returns
  · cases returns
  · simp only [bind_ok_iff] at returns
    obtain ⟨line₁, r₁, read₁, counts₁, s₁, set₁, line₂, r₂, read₂, counts₂, s₂, set₂, line₃, r₃, read₃, counts₃, s₃, set₃,
      line₄, r₄, read₄, counts₄, s₄, set₄, same⟩ := returns
    cases same
    obtain ⟨left₁, suffix₁, pending₁⟩ := readCounts_confined outside holding.pending read₁ set₁
    obtain ⟨left₂, suffix₂, pending₂⟩ := readCounts_confined outside pending₁ read₂ set₂
    obtain ⟨left₃, suffix₃, pending₃⟩ := readCounts_confined outside pending₂ read₃ set₃
    obtain ⟨left₄, suffix₄, pending₄⟩ := readCounts_confined outside pending₃ read₄ set₄
    exact ⟨rfl, left₄, ((suffix₄.trans suffix₃).trans suffix₂).trans suffix₁, pending₄⟩

end Parsers

section Loop

open Protocol

variable {ν : Type} {regex : Regex} {parsers : Text → Option (Reading (Text × ν))} {key : Text → Text}

/-- The line is a detail for which there is a parser. -/
def Accepts (regex : Regex) (parsers : Text → Option (Reading (Text × ν))) (line : Text) : Prop :=
  ∃ groups desc, regex.match? line = some groups ∧ groups.group "desc".toList = some desc ∧ (parsers desc).isSome = true

/-- What is known of the details of one kind of line. -/
structure ConfinedTable (regex : Regex) (parsers : Text → Option (Reading (Text × ν))) (key : Text → Text) : Prop where
  indented : ∀ line, (regex.match? line).isSome = true → Indented line
  confined : ∀ line groups desc parser, regex.match? line = some groups → groups.group "desc".toList = some desc →
    parsers desc = some parser → Confined parser line (key line)

/-- One round of the loop that returns in the end: it stops here, or a parser reads a detail. -/
theorem readDescLines_returns {ignoreRegex : Option Regex} {rounds : Nat} {lines : List Text}
    {reader after : CachingBufferedLineReader} {result final : Dict Text ν} (holding : reader.Holding lines)
    (returns : readDescLines regex parsers ignoreRegex (rounds + 1) (lines.headD []) result reader = .ok (final, after)) :
    final = result ∧ after.Pending lines ∧ (∀ line ∈ lines.head?, regex.match? line = none ∨
      (ignoreRegex.bind (·.match? line)).isSome = true) ∨
    ∃ line rest groups desc parser entry middle next ahead, lines = line :: rest ∧ regex.match? line = some groups ∧
      groups.group "desc".toList = some desc ∧ parsers desc = some parser ∧
      parser { reader with read := false } = .ok (entry, middle) ∧ readline middle = .ok (next, ahead) ∧
      readDescLines regex parsers ignoreRegex rounds next (result.set entry.1 entry.2) ahead = .ok (final, after) := by
  rw [readDescLines] at returns
  split at returns
  · rename_i stops
    cases returns
    refine .inl ⟨rfl, holding.rewind, fun line first => .inr ?_⟩
    obtain ⟨rest, rfl⟩ := List.head?_eq_some_iff.mp first
    exact stops.resolve_left fun empty => holding.1 (empty ▸ List.mem_cons_self)
  · rename_i goesOn
    cases lines with
    | nil => exact absurd (.inl rfl) goesOn
    | cons line rest =>
        rw [List.headD_cons] at returns
        cases matched : regex.match? line with
        | none =>
            rw [matched] at returns
            cases returns
            refine .inl ⟨rfl, holding.rewind, fun other first => .inl ?_⟩
            obtain rfl : line = other := by simpa using first
            exact matched
        | some groups =>
            rw [matched] at returns
            obtain ⟨desc, _, grouped, rewinds⟩ := bind_ok_iff.mp returns
            obtain ⟨rfl, _, same, named⟩ := group_ok_iff.mp grouped
            cases same
            obtain ⟨_, _, rewound, parses⟩ := bind_ok_iff.mp rewinds
            cases rewound
            cases found : parsers desc with
            | none =>
                rw [found] at parses
                cases parses
            | some parser =>
                rw [found] at parses
                obtain ⟨entry, middle, parsed, reads⟩ := bind_ok_iff.mp parses
                obtain ⟨next, ahead, read, later⟩ := bind_ok_iff.mp reads
                exact .inr ⟨line, rest, groups, desc, parser, entry, middle, next, ahead, rfl, matched, named, found, parsed,
                  read, later⟩

theorem readDescLines_confined (table : ConfinedTable regex parsers key) {rounds : Nat} {region rest : List Text}
    {reader after : CachingBufferedLineReader} {result final : Dict Text ν} (isLine : ∀ line ∈ region ++ rest, IsLine line)
    (outside : Outside rest) (holding : reader.Holding (region ++ rest))
    (returns : readDescLines regex parsers none rounds ((region ++ rest).headD []) result reader = .ok (final, after)) :
    (∀ name, final.get? name ≠ none → result.get? name ≠ none ∨
      ∃ line ∈ region, Accepts regex parsers line ∧ name = key line) ∧
    (∀ name, result.get? name ≠ none → final.get? name ≠ none) ∧
    (∀ line ∈ region.head?, Accepts regex parsers line → final.get? (key line) ≠ none) ∧
    ∃ left, left <:+ region ∧ after.Pending (left ++ rest) := by
  induction rounds generalizing region result reader with
  | zero => cases returns
  | succ rounds ih =>
      rcases readDescLines_returns holding returns with ⟨rfl, pending, stops⟩ | ⟨line, others, groups, desc, parser, entry, middle,
        next, ahead, split, matched, named, found, parsed, read, returns⟩
      · refine ⟨fun name old => .inl old, fun name old => old, fun line first accepts => ?_, region, List.suffix_refl region, pending⟩
        obtain ⟨more, rfl⟩ := List.head?_eq_some_iff.mp first
        obtain ⟨groups, _, matched, _⟩ := accepts
        rcases stops line rfl with refused | ignored
        · rw [matched] at refused
          cases refused
        · cases ignored
      · have indented := table.indented line (by rw [matched]; rfl)
        obtain ⟨region, rfl⟩ : ∃ more, region = line :: more := by
          cases region with
          | nil => exact absurd indented (outside line (by rw [← List.nil_append rest, split]; rfl))
          | cons first more =>
              obtain ⟨rfl, _⟩ := List.cons.inj split
              exact ⟨more, rfl⟩
        obtain ⟨name, left, suffix, pending⟩ :=
          table.confined line groups desc parser matched named found _ _ _ _ _ isLine outside holding.rewind parsed
        obtain ⟨rfl, held⟩ := Pending.readline_eq pending read
        have shorter := isLine_left isLine suffix
        obtain ⟨names, grows, _, last, suffix', pending'⟩ := ih shorter held returns
        have set (other : Text) : (result.set entry.1 entry.2).get? other ≠ none ↔ entry.1 = other ∨ result.get? other ≠ none := by
          rw [Dict.get?_set]
          split <;> simp_all
        refine ⟨fun other known => ?_, fun other known => grows other ((set other).mpr (.inr known)), fun first here _ => ?_, last,
          (suffix'.trans suffix).trans (List.suffix_cons line region), pending'⟩
        · rcases names other known with old | ⟨more, member, accepted, same⟩
          · rcases (set other).mp old with same | old
            · exact .inr ⟨line, List.mem_cons_self, ⟨groups, desc, matched, named, by rw [found]; rfl⟩, by rw [← same, name]⟩
            · exact .inl old
          · exact .inr ⟨more, List.mem_cons_of_mem line (suffix.subset member), accepted, same⟩
        · obtain rfl : line = first := by simpa using here
          exact grows _ ((set _).mpr (.inl name))

end Loop

section Tables

open Protocol

variable {limit : Nat} {line : Text}

theorem mem_of_registered {ν : Type} {parsers : List (String × Reading (Text × ν))} {desc : Text} {parser : Reading (Text × ν)}
    (found : registered parsers desc = some parser) : ∃ name : String, (name, parser) ∈ parsers ∧ name.toList = desc := by
  obtain ⟨entry, first, rfl⟩ := Option.map_eq_some_iff.mp found
  exact ⟨entry.1, List.mem_of_find?_eq_some first, by simpa using List.find?_some first⟩

/-- A line that a table's expression matches, with the description that the table is asked for. -/
theorem described_of_match {count : Nat} (positive : 0 < count) {more : List Regex} {groups : Groups}
    (matched : (described (List.replicate count (.char isSpace)) more).match? line = some groups) :
    Described line ∧ Indented line ∧ ∀ desc, groups.group "desc".toList = some desc → strip desc = strip (beforeColon line) := by
  obtain ⟨_, member⟩ := Regex.match?_mem matched
  obtain ⟨isDescribed, indented, desc, tail, rfl, same⟩ := described_of_replicate positive member
  refine ⟨isDescribed, indented, fun other named => ?_⟩
  obtain rfl : desc = other := by simpa [Groups.group] using named
  exact same

theorem bgpDetails_table (limit : Nat) :
    ConfinedTable bgpDetailsRe (registered (bgpDetailsParsers limit)) fun line => strip (beforeColon line) where
  indented line matched := by
    obtain ⟨groups, matched⟩ := Option.isSome_iff_exists.mp matched
    exact (described_of_match (by decide) matched).2.1
  confined line groups desc parser matched named found := by
    obtain ⟨isDescribed, -, -⟩ := described_of_match (by decide) matched
    obtain ⟨name, member, -⟩ := mem_of_registered found
    have text : Confined (parseStr limit) line (strip (beforeColon line)) := (confined_str isDescribed).map Value.str
    have number : Confined parseInt line (strip (beforeColon line)) := (confined_int line).map Value.int
    simp only [bgpDetailsParsers, List.mem_cons, Prod.mk.injEq, List.not_mem_nil, or_false] at member
    rcases member with ⟨-, rfl⟩ | ⟨-, rfl⟩ | ⟨-, rfl⟩ | ⟨-, rfl⟩ | ⟨-, rfl⟩ | ⟨-, rfl⟩ | ⟨-, rfl⟩ | ⟨-, rfl⟩ | ⟨-, rfl⟩ <;>
      first | exact text | exact number

theorem confined_bgp (isDescribed : Described line) : Confined (parseBgpState limit) line "bgp".toList := by
  intro region rest reader result after isLine outside pending returns
  obtain ⟨state, middle, parsed, more⟩ := bind_ok_iff.mp returns
  obtain ⟨_, left, suffix, held⟩ := confined_str isDescribed region rest reader state middle isLine outside pending parsed
  obtain ⟨details, last, loop, same⟩ := bind_ok_iff.mp more
  cases same
  obtain ⟨first, ahead, read, looped⟩ := bind_ok_iff.mp loop
  obtain ⟨rfl, holding⟩ := Pending.readline_eq held read
  have shorter := isLine_left isLine suffix
  obtain ⟨_, _, _, final, suffix', pending'⟩ := readDescLines_confined (bgpDetails_table limit) shorter outside holding looped
  exact ⟨rfl, final, suffix'.trans suffix, pending'⟩

/-- The key under which a detail is stored. -/
def entryName (desc : Text) : Text :=
  if desc = "Route change stats".toList then "route_change_stats".toList
  else if desc = "BGP state".toList then "bgp".toList
  else desc

theorem details_table (limit : Nat) :
    ConfinedTable detailsRe (registered (detailsParsers limit)) fun line => entryName (strip (beforeColon line)) where
  indented line matched := by
    obtain ⟨groups, matched⟩ := Option.isSome_iff_exists.mp matched
    exact (described_of_match (by decide) matched).2.1
  confined line groups desc parser matched named found := by
    obtain ⟨isDescribed, -, stripped⟩ := described_of_match (by decide) matched
    have desc_eq := stripped desc named
    obtain ⟨name, member, rfl⟩ := mem_of_registered found
    have text : Confined (plain (parseStr limit)) line (strip (beforeColon line)) :=
      ((confined_str isDescribed).map Value.str).map Detail.plain
    have number : Confined (plain parseInt) line (strip (beforeColon line)) :=
      ((confined_int line).map Value.int).map Detail.plain
    have routes := confined_routes line
    simp only [detailsParsers, List.mem_cons, Prod.mk.injEq, List.not_mem_nil, or_false] at member
    rw [← desc_eq] at text number routes ⊢
    rcases member with ⟨rfl, rfl⟩ | ⟨rfl, rfl⟩ | ⟨rfl, rfl⟩ | ⟨rfl, rfl⟩ | ⟨rfl, rfl⟩ | ⟨rfl, rfl⟩ | ⟨rfl, rfl⟩
    · exact text
    · exact number
    · exact text
    · exact text
    · exact routes
    · exact confined_stats line
    · exact confined_bgp isDescribed

end Tables

end ActiveBgp.Bird

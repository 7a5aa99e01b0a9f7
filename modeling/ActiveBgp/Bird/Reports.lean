import ActiveBgp.Bird.Regions

namespace ActiveBgp.Bird

open ActiveBgp.Python CachingBufferedLineReader

/-! # What is reported of a BGP session

`show_protocols` reads the line after a summary before it knows whether the details
are wanted, and then starts to read them one line too late.
-/

section Listings

/-- The description of a detail, if it is one for which there is a parser. -/
def kindOf (line : Text) : Option Text :=
  ((Protocol.detailsRe.match? line).bind (·.group "desc".toList)).filter
    (· ∈ (Protocol.detailsParsers 0).map fun entry => entry.1.toList)

/-- A detail with the lines that belong to it. -/
structure ListedDetail where
  line : Text
  more : List Text
deriving DecidableEq, Repr

namespace ListedDetail

def lines (detail : ListedDetail) : List Text := detail.line :: detail.more

def kind (detail : ListedDetail) : Text := (kindOf detail.line).getD []

/-- The lines of a detail are indented, and are no details themselves. -/
structure Formed (detail : ListedDetail) : Prop where
  kind : (kindOf detail.line).isSome = true
  more : ∀ line ∈ detail.more, Indented line ∧ kindOf line = none

end ListedDetail

structure ListedProtocol where
  summary : Text
  details : List ListedDetail
  blank : Option Text
deriving DecidableEq, Repr

namespace ListedProtocol

/-- What follows the summary. -/
def body (listed : ListedProtocol) : List Text := listed.details.flatMap ListedDetail.lines ++ listed.blank.toList

def lines (listed : ListedProtocol) : List Text := listed.summary :: listed.body

def isBgp (listed : ListedProtocol) : Bool :=
  (Protocol.summaryRe.match? listed.summary).any fun m => (m.group "proto".toList).any (· ∈ Protocol.supported)

structure Formed (listed : ListedProtocol) : Prop where
  matched : (Protocol.summaryRe.match? listed.summary).isSome = true
  details : ∀ detail ∈ listed.details, detail.Formed
  distinct : (listed.details.map ListedDetail.kind).Nodup
  blank : ∀ line ∈ listed.blank, ∀ char ∈ line, isSpace char = true

/-- The result has the fields of the summary, and an entry for each of the details and for no others. -/
structure Reports (listed : ListedProtocol) (result : Protocol) : Prop where
  fields : Protocol.summaryRe.match? listed.summary = some result.fields
  entries : ∀ key, result.details.get? key ≠ none ↔ ∃ detail ∈ listed.details, key = entryName detail.kind

end ListedProtocol

/-- No BGP session has details, and none is followed directly, without an empty line, by a protocol that has. -/
def Undisturbed : List ListedProtocol → Prop
  | [] => True
  | listed :: rest =>
      (listed.isBgp = true → listed.details = [] ∧ (listed.blank = none → ∀ next ∈ rest.head?, next.details = [])) ∧
      Undisturbed rest

end Listings

section Lines

variable {line : Text} {listed : ListedProtocol} {listing : List ListedProtocol}

theorem not_indented_of_summary (matched : (Protocol.summaryRe.match? line).isSome = true) : ¬ Indented line := by
  obtain ⟨groups, rest, member⟩ := Regex.match?_isSome_iff.mp matched
  obtain ⟨_, _, _, first, _⟩ := Regex.mem_run_line_cons.mp member
  obtain ⟨taken, _, rfl, some_word, word⟩ := Regex.mem_run_named.mp first
  obtain ⟨char, more, rfl⟩ := List.exists_cons_of_ne_nil (List.ne_nil_of_length_pos some_word)
  rintro ⟨other, start, blank⟩
  obtain rfl : char = other := by simpa using start
  have disjoint : isWord char = false := by
    simp only [isSpace, List.mem_cons, List.not_mem_nil, or_false, decide_eq_true_eq] at blank
    rcases blank with rfl | rfl | rfl | rfl | rfl | rfl <;> decide
  rw [word char List.mem_cons_self] at disjoint
  cases disjoint

theorem summary_of_indented (indented : Indented line) : Protocol.summaryRe.match? line = none := by
  cases matched : Protocol.summaryRe.match? line with
  | none => rfl
  | some m => exact absurd indented (not_indented_of_summary (by rw [matched]; rfl))

theorem details_of_not_indented (outside : ¬ Indented line) : Protocol.detailsRe.match? line = none := by
  cases matched : Protocol.detailsRe.match? line with
  | none => rfl
  | some m => exact absurd ((details_table 0).indented line (by rw [matched]; rfl)) outside

theorem kindOf_eq_some_iff {kind : Text} : kindOf line = some kind ↔
    ∃ groups, Protocol.detailsRe.match? line = some groups ∧ groups.group "desc".toList = some kind ∧
      kind ∈ (Protocol.detailsParsers 0).map fun entry => entry.1.toList := by
  rw [kindOf, Option.filter_eq_some_iff, Option.bind_eq_some_iff]
  simp only [decide_eq_true_eq]
  constructor
  · rintro ⟨⟨groups, matched, named⟩, member⟩
    exact ⟨groups, matched, named, member⟩
  · rintro ⟨groups, matched, named, member⟩
    exact ⟨⟨groups, matched, named⟩, member⟩

theorem registered_isSome_iff {limit : Nat} {desc : Text} :
    (Protocol.registered (Protocol.detailsParsers limit) desc).isSome = true ↔
      desc ∈ (Protocol.detailsParsers 0).map fun entry => entry.1.toList := by
  have names : (Protocol.detailsParsers limit).map (fun entry => entry.1.toList) =
      (Protocol.detailsParsers 0).map fun entry => entry.1.toList := rfl
  rw [← names, List.mem_map, Protocol.registered, Option.isSome_map, List.find?_isSome]
  simp only [decide_eq_true_eq]

theorem accepts_iff {limit : Nat} :
    Accepts Protocol.detailsRe (Protocol.registered (Protocol.detailsParsers limit)) line ↔ (kindOf line).isSome = true := by
  rw [Option.isSome_iff_exists]
  simp only [kindOf_eq_some_iff, ← @registered_isSome_iff limit]
  exact exists_comm

theorem indented_of_kind (known : (kindOf line).isSome = true) : Indented line := by
  obtain ⟨kind, known⟩ := Option.isSome_iff_exists.mp known
  obtain ⟨groups, matched, _⟩ := kindOf_eq_some_iff.mp known
  exact (details_table 0).indented line (by rw [matched]; rfl)

theorem entryName_kindOf {kind : Text} (known : kindOf line = some kind) :
    entryName (strip (beforeColon line)) = entryName kind := by
  obtain ⟨groups, matched, named, member⟩ := kindOf_eq_some_iff.mp known
  have stripped := (described_of_match (by decide) matched).2.2 kind named
  have plain : ∀ kind ∈ (Protocol.detailsParsers 0).map (fun entry => entry.1.toList), strip kind = kind := by
    decide +kernel
  rw [← stripped, plain kind member]

theorem kind_of_entryName {first second : Text} {line' : Text} (one : kindOf line = some first) (two : kindOf line' = some second)
    (same : entryName first = entryName second) : first = second := by
  obtain ⟨_, _, _, member⟩ := kindOf_eq_some_iff.mp one
  obtain ⟨_, _, _, member'⟩ := kindOf_eq_some_iff.mp two
  have injective : ∀ first ∈ (Protocol.detailsParsers 0).map (fun entry => entry.1.toList),
      ∀ second ∈ (Protocol.detailsParsers 0).map (fun entry => entry.1.toList),
        entryName first = entryName second → first = second := by
    decide +kernel
  exact injective first member second member' same

theorem details_of_blank (blank : ∀ char ∈ line, isSpace char = true) : Protocol.detailsRe.match? line = none := by
  cases matched : Protocol.detailsRe.match? line with
  | none => rfl
  | some groups =>
      obtain ⟨data, whole⟩ := (described_of_match (by decide) matched).1.colon
      have colon : isSpace ':' = true := blank ':' (by rw [whole]; simp)
      cases colon

theorem kind_of_blank (blank : ∀ char ∈ line, isSpace char = true) : kindOf line = none := by
  rw [kindOf, details_of_blank blank]
  rfl

theorem indented_of_blank (nonempty : line ≠ []) (blank : ∀ char ∈ line, isSpace char = true) : Indented line := by
  obtain ⟨char, more, rfl⟩ := List.exists_cons_of_ne_nil nonempty
  exact ⟨char, rfl, blank char List.mem_cons_self⟩

theorem ListedProtocol.Formed.indented (formed : listed.Formed) (nonempty : [] ∉ listed.body) :
    ∀ line ∈ listed.body, Indented line := by
  intro line member
  rcases List.mem_append.mp member with inside | final
  · obtain ⟨detail, known, here⟩ := List.mem_flatMap.mp inside
    rcases List.mem_cons.mp here with rfl | more
    · exact indented_of_kind (formed.details detail known).kind
    · exact ((formed.details detail known).more line more).1
  · have nonblank : line ≠ [] := fun empty => nonempty (empty ▸ member)
    exact indented_of_blank nonblank (formed.blank line (by simpa using final))

theorem flatMap_lines_cons (listed : ListedProtocol) (rest : List ListedProtocol) :
    (listed :: rest).flatMap ListedProtocol.lines = listed.summary :: (listed.body ++ rest.flatMap ListedProtocol.lines) := by
  rw [List.flatMap_cons, ListedProtocol.lines, List.cons_append]

/-- None of the parts of a listing has an empty line, and the body of the first protocol is indented. -/
theorem ListedProtocol.Formed.parts (formed : listed.Formed) {rest : List Text}
    (nonempty : [] ∉ listed.summary :: (listed.body ++ rest)) :
    listed.summary ≠ [] ∧ [] ∉ listed.body ++ rest ∧ [] ∉ rest ∧ ∀ line ∈ listed.body, Indented line := by
  obtain ⟨ink, later⟩ := not_or.mp (List.mem_cons.not.mp nonempty)
  obtain ⟨body, beyond⟩ := not_or.mp (List.mem_append.not.mp later)
  exact ⟨Ne.symm ink, later, beyond, formed.indented body⟩

theorem outside_listing (formed : ∀ listed ∈ listing, listed.Formed) : Outside (listing.flatMap ListedProtocol.lines) := by
  cases listing with
  | nil => exact nofun
  | cons listed rest =>
      intro line member
      obtain rfl : listed.summary = line := by simpa [ListedProtocol.lines] using member
      exact not_indented_of_summary (formed listed List.mem_cons_self).matched

/-- After a session without details, the second line is no detail. -/
theorem nothing_after (formed : ∀ other ∈ listed :: listing, other.Formed) (alone : listed.details = [])
    (apart : listed.blank = none → ∀ next ∈ listing.head?, next.details = []) :
    ∀ line ∈ (listed.body ++ listing.flatMap ListedProtocol.lines).tail.head?, Protocol.detailsRe.match? line = none := by
  obtain ⟨now, later⟩ := List.forall_mem_cons.mp formed
  rw [ListedProtocol.body, alone, List.flatMap_nil, List.nil_append]
  cases blank : listed.blank with
  | some empty => exact fun line member => details_of_not_indented (outside_listing later line member)
  | none =>
      cases listing with
      | nil => exact nofun
      | cons next others =>
          obtain ⟨nextFormed, othersFormed⟩ := List.forall_mem_cons.mp later
          intro line member
          change line ∈ (next.body ++ others.flatMap ListedProtocol.lines).head? at member
          rw [ListedProtocol.body, apart blank next rfl, List.flatMap_nil, List.nil_append] at member
          cases nextBlank : next.blank with
          | none =>
              rw [nextBlank] at member
              exact details_of_not_indented (outside_listing othersFormed line member)
          | some empty =>
              rw [nextBlank] at member
              obtain rfl : empty = line := by simpa using member
              exact details_of_blank (nextFormed.blank empty nextBlank)

theorem kind_of_mem {details : List ListedDetail} {blank : Option Text} (formed : ∀ detail ∈ details, detail.Formed)
    (empty : ∀ line ∈ blank, ∀ char ∈ line, isSpace char = true) {line kind : Text}
    (member : line ∈ details.flatMap ListedDetail.lines ++ blank.toList) (known : kindOf line = some kind) :
    ∃ detail ∈ details, detail.kind = kind := by
  rcases List.mem_append.mp member with inside | final
  · obtain ⟨detail, here, found⟩ := List.mem_flatMap.mp inside
    rcases List.mem_cons.mp found with rfl | more
    · exact ⟨detail, here, by rw [ListedDetail.kind, known]; rfl⟩
    · rw [((formed detail here).more line more).2] at known
      cases known
  · rw [kind_of_blank (empty line (by simpa using final))] at known
    cases known

end Lines

section Skipping

variable {limit rounds : Nat} {reader : CachingBufferedLineReader}

theorem readProtocols_skip_line {line : Text} {rest : List Text} (nonempty : line ≠ []) (skips : Protocol.summaryRe.match? line = none)
    (pending : reader.Pending rest) (results : List Protocol) :
    ∃ next, next.Holding rest ∧ readProtocols limit (rounds + 1) line results reader =
      readProtocols limit rounds (rest.headD []) results next := by
  obtain ⟨next, read, holding⟩ := pending.readline
  refine ⟨next, holding, ?_⟩
  rw [readProtocols, if_neg nonempty, skips]
  exact bind_of_ok read _

theorem readProtocols_skip {skipped rest : List Text} (skips : ∀ line ∈ skipped, Indented line)
    (nonempty : [] ∉ skipped ++ rest) (pending : reader.Pending (skipped ++ rest).tail) (results : List Protocol) :
    ∃ next, next.Pending rest.tail ∧ readProtocols limit (rounds + skipped.length) ((skipped ++ rest).headD []) results reader =
      readProtocols limit rounds (rest.headD []) results next := by
  induction skipped generalizing reader with
  | nil => exact ⟨reader, pending, rfl⟩
  | cons line more ih =>
      obtain ⟨now, later⟩ := List.forall_mem_cons.mp skips
      have ink : line ≠ [] := fun empty => nonempty (empty ▸ List.mem_cons_self)
      obtain ⟨middle, holding, step⟩ := readProtocols_skip_line ink (summary_of_indented now) pending results
      obtain ⟨next, left, same⟩ := ih later (fun member => nonempty (List.mem_cons_of_mem line member)) holding.pending
      exact ⟨next, left, step.trans same⟩

theorem readProtocols_skip_returns {skipped rest : List Text} (skips : ∀ line ∈ skipped, Indented line)
    (nonempty : [] ∉ skipped ++ rest) (pending : reader.Pending (skipped ++ rest).tail) {results : List Protocol}
    {out : List Protocol × CachingBufferedLineReader}
    (returns : readProtocols limit rounds ((skipped ++ rest).headD []) results reader = .ok out) :
    ∃ rounds' next, next.Pending rest.tail ∧ readProtocols limit rounds' (rest.headD []) results next = .ok out := by
  induction skipped generalizing reader rounds with
  | nil => exact ⟨rounds, reader, pending, returns⟩
  | cons line more ih =>
      obtain ⟨now, later⟩ := List.forall_mem_cons.mp skips
      have ink : line ≠ [] := fun empty => nonempty (empty ▸ List.mem_cons_self)
      cases rounds with
      | zero => cases returns
      | succ rounds =>
          obtain ⟨middle, holding, step⟩ := readProtocols_skip_line ink (summary_of_indented now) pending results
          exact ih later (fun member => nonempty (List.mem_cons_of_mem line member)) holding.pending (step.symm.trans returns)

theorem readProtocols_grows {line : Text} {results final : List Protocol} {after : CachingBufferedLineReader}
    (returns : readProtocols limit rounds line results reader = .ok (final, after)) : ∃ more, final = results ++ more := by
  induction rounds generalizing line results reader with
  | zero => cases returns
  | succ rounds ih =>
      rw [readProtocols] at returns
      split at returns
      · cases returns
        exact ⟨[], (List.append_nil _).symm⟩
      · cases matched : Protocol.summaryRe.match? line with
        | none =>
            rw [matched] at returns
            obtain ⟨_, _, _, looped⟩ := bind_ok_iff.mp returns
            exact ih looped
        | some m =>
            rw [matched] at returns
            obtain ⟨_, _, _, grouped⟩ := bind_ok_iff.mp returns
            obtain ⟨proto, _, _, looped⟩ := bind_ok_iff.mp grouped
            split at looped
            · exact ih looped
            · obtain ⟨details, _, _, looped⟩ := bind_ok_iff.mp looped
              obtain ⟨more, rfl⟩ := ih looped
              exact ⟨_, List.append_assoc _ _ _⟩

end Skipping

section Summaries

variable {limit rounds : Nat} {reader : CachingBufferedLineReader} {listed : ListedProtocol} {listing : List ListedProtocol}

theorem group_proto {line : Text} {m : Groups} (matched : Protocol.summaryRe.match? line = some m) :
    ∃ proto, m.group "proto".toList = some proto := by
  obtain ⟨_, member⟩ := Regex.match?_mem matched
  obtain ⟨_, _, _, first, second, rfl⟩ := Regex.mem_run_line_cons.mp member
  obtain ⟨_, _, _, blanks, third, rfl⟩ := Regex.mem_run_line_cons.mp second
  obtain ⟨_, _, _, proto, _, rfl⟩ := Regex.mem_run_line_cons.mp third
  obtain ⟨name, rfl, _⟩ := Regex.mem_run_named.mp first
  obtain ⟨rfl, _⟩ := Regex.mem_run_many.mp blanks
  obtain ⟨text, rfl, _⟩ := Regex.mem_run_named.mp proto
  exact ⟨text, by simp [Groups.group]⟩

theorem readProtocols_summary {m : Groups} (nonempty : listed.summary ≠ [])
    (matched : Protocol.summaryRe.match? listed.summary = some m) {rest : List Text} (pending : reader.Pending rest)
    (results : List Protocol) :
    ∃ middle, middle.Holding rest ∧ ∀ out, readProtocols limit (rounds + 1) listed.summary results reader = .ok out ↔
      if listed.isBgp then
        ∃ details next, parseDescLines limit Protocol.detailsRe (Protocol.registered (Protocol.detailsParsers limit)) none middle =
            .ok (details, next) ∧
          readProtocols limit rounds (rest.headD []) (results ++ [⟨m, details⟩]) next = .ok out
      else readProtocols limit rounds (rest.headD []) results middle = .ok out := by
  obtain ⟨middle, read, holding⟩ := pending.readline
  obtain ⟨proto, named⟩ := group_proto matched
  have isBgp : listed.isBgp = decide (proto ∈ Protocol.supported) := by
    rw [ListedProtocol.isBgp, matched, Option.any_some, named, Option.any_some]
  refine ⟨middle, holding, fun out => ?_⟩
  have grouped : group (some m) "proto" middle = .ok (proto, middle) := group_ok_iff.mpr ⟨rfl, m, rfl, named⟩
  rw [readProtocols, if_neg nonempty, matched]
  dsimp only
  rw [bind_of_ok read, bind_of_ok grouped, isBgp]
  by_cases supported : proto ∈ Protocol.supported
  · rw [if_neg (not_not_intro supported), if_pos (decide_eq_true supported), bind_ok_iff]
  · rw [if_pos supported, if_neg (by simpa using supported)]

theorem parseDescLines_nothing {lines : List Text} (pending : reader.Pending lines)
    (nothing : ∀ line ∈ lines.head?, Protocol.detailsRe.match? line = none) (positive : 0 < limit) :
    ∃ after, parseDescLines limit Protocol.detailsRe (Protocol.registered (Protocol.detailsParsers limit)) none reader =
      .ok (.empty, after) ∧ after.Pending lines := by
  obtain ⟨middle, read, holding⟩ := pending.readline
  obtain ⟨rounds, rfl⟩ := Nat.exists_eq_succ_of_ne_zero (Nat.ne_of_gt positive)
  refine ⟨{ middle with read := false }, bind_ok_iff.mpr ⟨_, middle, read, ?_⟩, holding.rewind⟩
  cases lines with
  | nil =>
      rw [readDescLines, if_pos (.inl rfl)]
      rfl
  | cons line rest =>
      have refused : Protocol.detailsRe.match? line = none := nothing line rfl
      rw [readDescLines, List.headD_cons, refused]
      split <;> rfl

theorem limit_positive {ignoreRegex : Option Regex} {result : Dict Text Protocol.Detail × CachingBufferedLineReader}
    (returns : parseDescLines limit Protocol.detailsRe (Protocol.registered (Protocol.detailsParsers limit)) ignoreRegex reader =
      .ok result) : 0 < limit := by
  obtain ⟨_, _, _, loop⟩ := bind_ok_iff.mp returns
  cases limit with
  | zero => cases loop
  | succ limit => exact Nat.zero_lt_succ limit

/-- The entries of the details that are read come from lines of the region, and one from its first line. -/
theorem parseDescLines_entries {region rest : List Text} (outside : Outside rest) (isLine : ∀ line ∈ region ++ rest, IsLine line)
    (pending : reader.Pending (region ++ rest)) {details : Dict Text Protocol.Detail} {after : CachingBufferedLineReader}
    (returns : parseDescLines limit Protocol.detailsRe (Protocol.registered (Protocol.detailsParsers limit)) none reader =
      .ok (details, after)) :
    (∀ name, details.get? name ≠ none → ∃ line ∈ region, ∃ kind, kindOf line = some kind ∧ name = entryName kind) ∧
    ∀ line ∈ region.head?, ∀ kind, kindOf line = some kind → details.get? (entryName kind) ≠ none := by
  obtain ⟨first, middle, read, loop⟩ := bind_ok_iff.mp returns
  obtain ⟨rfl, holding⟩ := Pending.readline_eq pending read
  obtain ⟨names, _, start, _⟩ := readDescLines_confined (details_table limit) isLine outside holding loop
  constructor
  · intro name known
    rcases names name known with old | ⟨line, member, accepts, same⟩
    · exact absurd (Dict.get?_empty name) old
    · obtain ⟨kind, found⟩ := Option.isSome_iff_exists.mp (accepts_iff.mp accepts)
      exact ⟨line, member, kind, found, by rw [same, entryName_kindOf found]⟩
  · intro line here kind found
    rw [← entryName_kindOf found]
    exact start line here (accepts_iff.mpr (by rw [found]; rfl))

end Summaries

section Reports

open ListedProtocol

variable {limit : Nat} {listing : List ListedProtocol}

theorem readProtocols_reports (positive : 0 < limit) (formed : ∀ listed ∈ listing, listed.Formed) (undisturbed : Undisturbed listing)
    {rounds : Nat} (enough : (listing.flatMap lines).length < rounds) (nonempty : [] ∉ listing.flatMap lines)
    {reader : CachingBufferedLineReader} (pending : reader.Pending (listing.flatMap lines).tail) (results : List Protocol) :
    ∃ more after, readProtocols limit rounds ((listing.flatMap lines).headD []) results reader = .ok (results ++ more, after) ∧
      List.Forall₂ Reports (listing.filter isBgp) more := by
  induction listing generalizing rounds reader results with
  | nil =>
      obtain ⟨rounds, rfl⟩ := Nat.exists_eq_succ_of_ne_zero (Nat.ne_of_gt enough)
      refine ⟨[], reader, ?_, .nil⟩
      change readProtocols limit (rounds + 1) [] results reader = _
      rw [readProtocols, if_pos rfl, List.append_nil]
      rfl
  | cons listed rest ih =>
      obtain ⟨now, later⟩ := List.forall_mem_cons.mp formed
      obtain ⟨calm, others⟩ := undisturbed
      rw [flatMap_lines_cons] at enough nonempty pending ⊢
      rw [List.tail_cons] at pending
      rw [List.length_cons, List.length_append] at enough
      obtain ⟨rounds, rfl⟩ : ∃ more, rounds = more + listed.body.length + 1 := ⟨rounds - listed.body.length - 1, by omega⟩
      have short : (rest.flatMap lines).length < rounds := by omega
      obtain ⟨ink, nonemptyBody, nonemptyRest, indented⟩ := now.parts nonempty
      obtain ⟨m, matched⟩ := Option.isSome_iff_exists.mp now.matched
      obtain ⟨middle, holding, step⟩ := readProtocols_summary ink matched pending results
      cases isBgp : listed.isBgp with
      | false =>
          obtain ⟨next, left, same⟩ := readProtocols_skip indented nonemptyBody holding.pending results
          obtain ⟨more, after, done, reports⟩ := ih later others short nonemptyRest left results
          refine ⟨more, after, ?_, by rwa [List.filter_cons_of_neg (by simp [isBgp])]⟩
          rw [List.headD_cons, step, if_neg (by simp [isBgp]), same]
          exact done
      | true =>
          obtain ⟨none_listed, apart⟩ := calm isBgp
          obtain ⟨next, parsed, left⟩ := parseDescLines_nothing holding.pending (nothing_after formed none_listed apart) positive
          obtain ⟨ahead, still, same⟩ := readProtocols_skip indented nonemptyBody left (results ++ [⟨m, .empty⟩])
          obtain ⟨more, after, done, reports⟩ := ih later others short nonemptyRest still (results ++ [⟨m, .empty⟩])
          have report : Reports listed ⟨m, .empty⟩ := ⟨matched, fun key => by simp [none_listed]⟩
          refine ⟨⟨m, .empty⟩ :: more, after, ?_, by rw [List.filter_cons_of_pos isBgp]; exact .cons report reports⟩
          rw [List.headD_cons, step, if_pos isBgp]
          refine ⟨.empty, next, parsed, ?_⟩
          rw [same, done, List.append_assoc, List.singleton_append]

/-- A session with details is not reported: its first one is lost. -/
theorem details_lost {listed : ListedProtocol} {rest : List Text} (formed : listed.Formed) (outside : Outside rest)
    (isLine : ∀ line ∈ listed.body ++ rest, IsLine line) {reader : CachingBufferedLineReader}
    (pending : reader.Pending (listed.body ++ rest).tail) {details : Dict Text Protocol.Detail} {after : CachingBufferedLineReader}
    (returns : parseDescLines limit Protocol.detailsRe (Protocol.registered (Protocol.detailsParsers limit)) none reader =
      .ok (details, after)) {m : Groups} (reports : Reports listed ⟨m, details⟩) : listed.details = [] := by
  cases some_details : listed.details with
  | nil => rfl
  | cons first more =>
      have distinct := formed.distinct
      have each := formed.details
      rw [some_details] at distinct each
      obtain ⟨now, later⟩ := List.forall_mem_cons.mp each
      have body : listed.body = first.line :: (first.more ++ (more.flatMap ListedDetail.lines ++ listed.blank.toList)) := by
        simp [ListedProtocol.body, some_details, ListedDetail.lines]
      rw [body] at pending isLine
      obtain ⟨firstKind, firstKnown⟩ := Option.isSome_iff_exists.mp now.kind
      have known : details.get? (entryName first.kind) ≠ none :=
        (reports.entries _).mpr ⟨first, some_details ▸ List.mem_cons_self, rfl⟩
      obtain ⟨line, member, kind, found, same⟩ := (parseDescLines_entries outside
        (fun line member => isLine line (List.mem_cons_of_mem _ member)) pending returns).1 _ known
      have firstKind_eq : first.kind = firstKind := by rw [ListedDetail.kind, firstKnown]; rfl
      rw [firstKind_eq] at same
      obtain rfl := kind_of_entryName firstKnown found same
      rcases List.mem_append.mp member with own | other
      · rw [(now.more line own).2] at found
        cases found
      · obtain ⟨detail, here, again⟩ := kind_of_mem later formed.blank other found
        rw [List.map_cons, List.nodup_cons] at distinct
        exact absurd (List.mem_map.mpr ⟨detail, here, again.trans firstKind_eq.symm⟩) distinct.1

/-- A session without details is not reported if it takes those of the next protocol. -/
theorem details_taken {listed next : ListedProtocol} {rest : List Text} (alone : listed.details = []) (formed : next.Formed)
    (outside : Outside rest) (isLine : ∀ line ∈ next.body ++ rest, IsLine line) {reader : CachingBufferedLineReader}
    (pending : reader.Pending (next.body ++ rest)) {details : Dict Text Protocol.Detail} {after : CachingBufferedLineReader}
    (returns : parseDescLines limit Protocol.detailsRe (Protocol.registered (Protocol.detailsParsers limit)) none reader =
      .ok (details, after)) {m : Groups} (reports : Reports listed ⟨m, details⟩) : next.details = [] := by
  cases some_details : next.details with
  | nil => rfl
  | cons first more =>
      obtain ⟨kind, known⟩ := Option.isSome_iff_exists.mp (formed.details first (some_details ▸ List.mem_cons_self)).kind
      have start : first.line ∈ next.body.head? := by simp [ListedProtocol.body, some_details, ListedDetail.lines]
      have taken := (parseDescLines_entries outside isLine pending returns).2 first.line start kind known
      obtain ⟨detail, member, _⟩ := (reports.entries _).mp taken
      rw [alone] at member
      cases member

/-- The conditions on the first session of a listing that is reported. -/
theorem quiet_of_reports {listed : ListedProtocol} {rest : List ListedProtocol} (formed : ∀ other ∈ listed :: rest, other.Formed)
    (isLine : ∀ line ∈ listed.body ++ rest.flatMap lines, IsLine line) {reader : CachingBufferedLineReader}
    (pending : reader.Pending (listed.body ++ rest.flatMap lines).tail) {details : Dict Text Protocol.Detail}
    {after : CachingBufferedLineReader}
    (returns : parseDescLines limit Protocol.detailsRe (Protocol.registered (Protocol.detailsParsers limit)) none reader =
      .ok (details, after)) {m : Groups} (reports : Reports listed ⟨m, details⟩) :
    listed.details = [] ∧ (listed.blank = none → ∀ next ∈ rest.head?, next.details = []) := by
  obtain ⟨now, later⟩ := List.forall_mem_cons.mp formed
  have alone := details_lost now (outside_listing later) isLine pending returns reports
  refine ⟨alone, fun noBlank next first => ?_⟩
  obtain ⟨beyond, rfl⟩ := List.head?_eq_some_iff.mp first
  obtain ⟨nextFormed, beyondFormed⟩ := List.forall_mem_cons.mp later
  have noBody : listed.body = [] := by simp [ListedProtocol.body, alone, noBlank]
  rw [noBody, List.nil_append, flatMap_lines_cons] at pending isLine
  exact details_taken alone nextFormed (outside_listing beyondFormed)
    (fun line member => isLine line (List.mem_cons_of_mem next.summary member)) pending returns reports

theorem undisturbed_of_reports (formed : ∀ listed ∈ listing, listed.Formed) (isLine : ∀ line ∈ listing.flatMap lines, IsLine line)
    (nonempty : [] ∉ listing.flatMap lines) {rounds : Nat} {reader : CachingBufferedLineReader}
    (pending : reader.Pending (listing.flatMap lines).tail) {results more : List Protocol} {after : CachingBufferedLineReader}
    (returns : readProtocols limit rounds ((listing.flatMap lines).headD []) results reader = .ok (results ++ more, after))
    (reports : List.Forall₂ Reports (listing.filter isBgp) more) : Undisturbed listing := by
  induction listing generalizing rounds reader results more with
  | nil => trivial
  | cons listed rest ih =>
      obtain ⟨now, later⟩ := List.forall_mem_cons.mp formed
      rw [flatMap_lines_cons] at isLine nonempty pending returns
      rw [List.tail_cons] at pending
      cases rounds with
      | zero => cases returns
      | succ rounds =>
          obtain ⟨ink, nonemptyBody, nonemptyRest, indented⟩ := now.parts nonempty
          have isLineBody : ∀ line ∈ listed.body ++ rest.flatMap lines, IsLine line :=
            fun line member => isLine line (List.mem_cons_of_mem _ member)
          have isLineRest : ∀ line ∈ rest.flatMap lines, IsLine line :=
            fun line member => isLineBody line (List.mem_append_right _ member)
          obtain ⟨m, matched⟩ := Option.isSome_iff_exists.mp now.matched
          obtain ⟨middle, holding, step⟩ := readProtocols_summary ink matched pending results
          rw [List.headD_cons, step] at returns
          cases isBgp : listed.isBgp with
          | false =>
              rw [if_neg (by simp [isBgp])] at returns
              rw [List.filter_cons_of_neg (by simp [isBgp])] at reports
              obtain ⟨rounds', next, left, goesOn⟩ := readProtocols_skip_returns indented nonemptyBody holding.pending returns
              exact ⟨fun bgp => by simp [isBgp] at bgp, ih later isLineRest nonemptyRest left goesOn reports⟩
          | true =>
              rw [if_pos isBgp] at returns
              obtain ⟨details, next, parsed, looped⟩ := returns
              obtain ⟨others, grown⟩ := readProtocols_grows looped
              rw [List.append_assoc, List.append_cancel_left_eq, List.singleton_append] at grown
              subst grown
              rw [List.filter_cons_of_pos isBgp, List.forall₂_cons] at reports
              obtain ⟨report, reports⟩ := reports
              obtain ⟨alone, apart⟩ := quiet_of_reports formed isLineBody holding.pending parsed report
              have positive : 0 < limit := limit_positive parsed
              obtain ⟨same, parsed', left⟩ := parseDescLines_nothing holding.pending (nothing_after formed alone apart) positive
              obtain ⟨-, rfl⟩ : Dict.empty = details ∧ same = next := by simpa using parsed'.symm.trans parsed
              obtain ⟨rounds', ahead, still, goesOn⟩ := readProtocols_skip_returns indented nonemptyBody left looped
              have regrouped := List.append_cons results ⟨m, details⟩ others
              rw [regrouped] at goesOn
              exact ⟨fun _ => ⟨alone, apart⟩, ih later isLineRest nonemptyRest still goesOn reports⟩

variable {text header : Text}

theorem showProtocols_ok_iff {lines : List Text} (nonempty : [] ∉ header :: lines) (fields : words header = Protocol.headerLineFields) :
    ∃ reader, reader.Pending lines.tail ∧ ∀ out, showProtocols limit (.init (header :: lines)) = .ok out ↔
      readProtocols limit limit (lines.headD []) [] reader = .ok out := by
  obtain ⟨first, read, holding⟩ := (pending_init nonempty).readline
  obtain ⟨second, next, held⟩ := holding.pending.readline
  refine ⟨second, held.pending, fun out => ?_⟩
  rw [showProtocols, bind_of_ok read, List.headD_cons, if_neg (not_not_intro fields)]
  exact iff_of_eq (congrArg (· = .ok out) (bind_of_ok next _))

theorem showProtocols_of_undisturbed (split : Text.splitLines text = header :: listing.flatMap lines)
    (fields : words header = Protocol.headerLineFields) (formed : ∀ listed ∈ listing, listed.Formed)
    (undisturbed : Undisturbed listing) (enough : (Text.splitLines text).length ≤ limit) :
    ∃ results after, showProtocols limit (.init (Text.splitLines text)) = .ok (results, after) ∧
      List.Forall₂ Reports (listing.filter isBgp) results := by
  have nonempty : [] ∉ Text.splitLines text := fun member => (Text.line_of_mem_splitLines member).1 rfl
  rw [split] at nonempty enough ⊢
  rw [List.length_cons] at enough
  obtain ⟨reader, pending, same⟩ := @showProtocols_ok_iff limit _ _ nonempty fields
  obtain ⟨results, after, done, reports⟩ := readProtocols_reports (Nat.zero_lt_of_lt enough) formed undisturbed enough
    (fun member => nonempty (List.mem_cons_of_mem header member)) pending []
  exact ⟨results, after, (same _).mpr done, reports⟩

theorem undisturbed_of_showProtocols (split : Text.splitLines text = header :: listing.flatMap lines)
    (fields : words header = Protocol.headerLineFields) (formed : ∀ listed ∈ listing, listed.Formed) {results : List Protocol}
    {after : CachingBufferedLineReader} (returns : showProtocols limit (.init (Text.splitLines text)) = .ok (results, after))
    (reports : List.Forall₂ Reports (listing.filter isBgp) results) : Undisturbed listing := by
  have isLine : ∀ line ∈ Text.splitLines text, line ≠ [] ∧ IsLine line := fun line => Text.line_of_mem_splitLines
  rw [split] at isLine returns
  have nonempty : [] ∉ header :: listing.flatMap lines := fun member => (isLine [] member).1 rfl
  obtain ⟨reader, pending, same⟩ := @showProtocols_ok_iff limit _ _ nonempty fields
  exact undisturbed_of_reports formed (fun line member => (isLine line (List.mem_cons_of_mem header member)).2)
    (fun member => nonempty (List.mem_cons_of_mem header member)) pending ((same _).mp returns) reports

/-- Each BGP session of a listing is reported with its own details exactly if none has any and none stands before those of another. -/
theorem showProtocols_reports_iff (split : Text.splitLines text = header :: listing.flatMap lines)
    (fields : words header = Protocol.headerLineFields) (formed : ∀ listed ∈ listing, listed.Formed) :
    (∃ limit results after, showProtocols limit (.init (Text.splitLines text)) = .ok (results, after) ∧
      List.Forall₂ Reports (listing.filter isBgp) results) ↔ Undisturbed listing := by
  constructor
  · rintro ⟨limit, results, after, returns, reports⟩
    exact undisturbed_of_showProtocols split fields formed returns reports
  · intro undisturbed
    exact ⟨_, showProtocols_of_undisturbed split fields formed undisturbed le_rfl⟩

end Reports

section Examples

open ListedProtocol

def exampleHeader : Text := "name proto table state since info\n".toList

def exampleDetail : ListedDetail := ⟨"  Description: x\n".toList, []⟩

/-- A pipe, with a detail, and a session without any. -/
def exampleListing : List ListedProtocol :=
  [⟨"mux Pipe t up 1\n".toList, [exampleDetail], some ['\n']⟩, ⟨"up BGP t up 1\n".toList, [], none⟩]

def lostListing : List ListedProtocol := [⟨"up BGP t up 1\n".toList, [exampleDetail], some ['\n']⟩]

theorem exampleDetail_formed : exampleDetail.Formed := ⟨by decide +kernel, nofun⟩

theorem formed_example (listed : ListedProtocol) (details : listed.details = [] ∨ listed.details = [exampleDetail])
    (matched : (Protocol.summaryRe.match? listed.summary).isSome = true) (blank : listed.blank = none ∨ listed.blank = some ['\n']) :
    listed.Formed where
  matched := matched
  details := by
    rcases details with same | same
    · simp [same]
    · simpa [same] using exampleDetail_formed
  distinct := by
    rcases details with same | same <;> simp [same]
  blank := by
    rcases blank with same | same
    · simp [same]
    · simp [same, isSpace]

theorem exampleListing_formed : ∀ listed ∈ exampleListing, listed.Formed :=
  List.forall_mem_cons.mpr ⟨formed_example _ (.inr rfl) (by decide +kernel) (.inr rfl),
    List.forall_mem_cons.mpr ⟨formed_example _ (.inl rfl) (by decide +kernel) (.inl rfl), nofun⟩⟩

theorem showProtocols_reports_iff_example :
    (∃ limit results after, showProtocols limit
        (.init (Text.splitLines (exampleHeader :: exampleListing.flatMap lines).flatten)) = .ok (results, after) ∧
      List.Forall₂ Reports (exampleListing.filter isBgp) results) ↔ Undisturbed exampleListing :=
  have split : Text.splitLines (exampleHeader :: exampleListing.flatMap lines).flatten =
      exampleHeader :: exampleListing.flatMap lines := by
    decide +kernel
  showProtocols_reports_iff split (by decide +kernel) exampleListing_formed

theorem lostListing_formed : ∀ listed ∈ lostListing, listed.Formed :=
  List.forall_mem_cons.mpr ⟨formed_example _ (.inr rfl) (by decide +kernel) (.inr rfl), nofun⟩

/-- The description of a session is lost. -/
theorem description_lost :
    Text.splitLines (exampleHeader :: lostListing.flatMap lines).flatten = exampleHeader :: lostListing.flatMap lines ∧
      words exampleHeader = Protocol.headerLineFields ∧ (∀ listed ∈ lostListing, listed.Formed) ∧
      ¬ ∃ limit results after, showProtocols limit
          (.init (Text.splitLines (exampleHeader :: lostListing.flatMap lines).flatten)) = .ok (results, after) ∧
        List.Forall₂ Reports (lostListing.filter isBgp) results := by
  have split : Text.splitLines (exampleHeader :: lostListing.flatMap lines).flatten = exampleHeader :: lostListing.flatMap lines := by
    decide +kernel
  have fields : words exampleHeader = Protocol.headerLineFields := by decide +kernel
  refine ⟨split, fields, lostListing_formed, ?_⟩
  rintro ⟨limit, results, after, returns, reports⟩
  have undisturbed := undisturbed_of_showProtocols split fields lostListing_formed returns reports
  have isBgp : ListedProtocol.isBgp ⟨"up BGP t up 1\n".toList, [exampleDetail], some ['\n']⟩ = true := by decide +kernel
  cases (undisturbed.1 isBgp).1

end Examples

end ActiveBgp.Bird

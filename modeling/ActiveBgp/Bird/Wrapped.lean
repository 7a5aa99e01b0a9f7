import ActiveBgp.Bird.Protocols
import ActiveBgp.Bird.Routes

namespace ActiveBgp.Bird

open ActiveBgp.Python ActiveBgp.Data CachingBufferedLineReader

/-! # Attributes over several lines

BIRD breaks a long list between two items and prints no blank at the break.  The
lines are stripped before they are joined, so that the items on both sides of a
break become one.
-/

section Words

variable {front rest text blanks : Text} {char : Char}

theorem words_append_space (space : isSpace char = true) (front rest : Text) :
    words (front ++ char :: rest) = words front ++ words rest := by
  rw [words, List.splitOnP_append_cons front rest space, List.filter_append]
  rfl

theorem words_blank_append (blank : ∀ char ∈ blanks, isSpace char = true) (text : Text) :
    words (blanks ++ text) = words text := by
  induction blanks with
  | nil => rfl
  | cons first more ih =>
      obtain ⟨space, later⟩ := List.forall_mem_cons.mp blank
      have dropped := words_append_space space [] (more ++ text)
      rw [List.cons_append]
      exact dropped.trans (ih later)

theorem words_append_blank (blank : ∀ char ∈ blanks, isSpace char = true) (text : Text) :
    words (text ++ blanks) = words text := by
  cases blanks with
  | nil => rw [List.append_nil]
  | cons first more =>
      obtain ⟨space, later⟩ := List.forall_mem_cons.mp blank
      have nothing : words more = [] := by
        have empty := words_blank_append later []
        rwa [List.append_nil] at empty
      rw [words_append_space space, nothing, List.append_nil]

theorem words_rstrip (text : Text) : words (rstrip text) = words text := by
  conv_rhs => rw [← List.rdropWhile_append_rtakeWhile (p := isSpace) (l := text)]
  exact (words_append_blank (fun char member => List.mem_rtakeWhile_imp member) _).symm

theorem words_strip (text : Text) : words (strip text) = words text := by
  have front : words (text.dropWhile isSpace) = words text := by
    conv_rhs => rw [← List.takeWhile_append_dropWhile (p := isSpace) (l := text)]
    exact (words_blank_append (fun char member => List.mem_takeWhile_imp member) _).symm
  exact (words_rstrip _).trans front

/-- A word ends at a character that is not blank and has nothing or a blank after it. -/
theorem length_words_cons (char : Char) (text : Text) :
    (words (char :: text)).length =
      (words text).length + if isSpace char = false ∧ text.head?.all isSpace = true then 1 else 0 := by
  cases space : isSpace char with
  | true =>
      have dropped := words_append_space space [] text
      rw [if_neg (by simp)]
      exact congrArg List.length dropped
  | false =>
      have splits : (char :: text).splitOnP isSpace = (text.splitOnP isSpace).modifyHead (char :: ·) := by
        rw [List.splitOnP_cons_eq_if_modifyHead, if_neg (by simp [space])]
      rw [words, splits]
      cases text with
      | nil => simp [words]
      | cons next more =>
          cases ends : isSpace next with
          | true => simp [words, List.splitOnP_cons_eq_if_modifyHead, ends]
          | false =>
              obtain ⟨first, others, split⟩ := List.exists_cons_of_ne_nil (List.splitOnP_ne_nil isSpace more)
              simp [words, List.splitOnP_cons_eq_if_modifyHead, ends, split]

theorem length_words_append (some_front : front ≠ []) (last : isSpace (front.getLast some_front) = false)
    (some_rest : rest ≠ []) (first : isSpace (rest.head some_rest) = false) :
    (words (front ++ rest)).length + 1 = (words front).length + (words rest).length := by
  induction front with
  | nil => exact absurd rfl some_front
  | cons char more ih =>
      rw [List.cons_append, length_words_cons char (more ++ rest), length_words_cons char more]
      cases more with
      | nil =>
          rw [List.getLast_singleton] at last
          obtain ⟨next, others, rfl⟩ := List.exists_cons_of_ne_nil some_rest
          rw [List.head_cons] at first
          simp [last, first, words, Nat.add_comm]
      | cons next others =>
          have tail := ih (List.cons_ne_nil next others) (by rwa [List.getLast_cons] at last)
          rw [List.head?_append_of_ne_nil _ (List.cons_ne_nil next others)]
          omega

end Words

section Joined

variable {data : Text} {continuations : List Text}

/-- A text that neither starts nor ends with a blank. -/
structure Tight (text : Text) : Prop where
  nonempty : text ≠ []
  first : isSpace (text.head nonempty) = false
  last : isSpace (text.getLast nonempty) = false

theorem getLast_rstrip {text : Text} (nonempty : rstrip text ≠ []) : isSpace ((rstrip text).getLast nonempty) = false :=
  Bool.eq_false_of_not_eq_true (List.rdropWhile_last_not isSpace text nonempty)

theorem ne_nil_of_words {text : Text} (items : words text ≠ []) : text ≠ [] := by
  rintro rfl
  exact items rfl

theorem tight_strip {text : Text} (items : words text ≠ []) : Tight (strip text) := by
  have nonempty : strip text ≠ [] := ne_nil_of_words (by rwa [words_strip])
  refine ⟨nonempty, ?_, getLast_rstrip nonempty⟩
  have starts : strip text <+: text.dropWhile isSpace := List.rdropWhile_prefix isSpace _
  have dropped : text.dropWhile isSpace ≠ [] := fun empty => nonempty (List.prefix_nil.mp (empty ▸ starts))
  rw [starts.head nonempty]
  exact List.head_dropWhile_not isSpace dropped

theorem length_words_flatten {front : Text} {pieces : List Text} (nonempty : front ≠ [])
    (last : isSpace (front.getLast nonempty) = false) (tight : ∀ piece ∈ pieces, Tight piece) :
    (words (front ++ pieces.flatten)).length + pieces.length = (words front).length + (pieces.flatMap words).length := by
  induction pieces generalizing front with
  | nil => simp
  | cons piece more ih =>
      obtain ⟨now, later⟩ := List.forall_mem_cons.mp tight
      have joined := length_words_append nonempty last now.nonempty now.first
      have tail := @ih (front ++ piece) (by simp [nonempty])
        (by rw [List.getLast_append_of_ne_nil _ now.nonempty]; exact now.last) later
      rw [List.flatten_cons, ← List.append_assoc, List.length_cons, List.flatMap_cons, List.length_append]
      omega

/-- The items of a joined text are those of its lines only if there is one line. -/
theorem words_joined_iff (items : ∀ piece ∈ data :: continuations, words piece ≠ []) :
    words (joined data continuations) = (data :: continuations).flatMap words ↔ continuations = [] := by
  obtain ⟨own, others⟩ := List.forall_mem_cons.mp items
  rw [joined, words_strip, List.flatMap_cons]
  constructor
  · intro same
    have nonempty : rstrip data ≠ [] := ne_nil_of_words (by rwa [words_rstrip])
    have tight : ∀ piece ∈ continuations.map strip, Tight piece :=
      List.forall_mem_map.mpr fun piece member => tight_strip (others piece member)
    have count := length_words_flatten nonempty (getLast_rstrip nonempty) tight
    have stripped : (continuations.map strip).flatMap words = continuations.flatMap words := by
      rw [List.flatMap_map]
      exact congrArg continuations.flatMap (funext words_strip)
    rw [same, stripped, words_rstrip, List.length_map, List.length_append] at count
    exact List.length_eq_zero_iff.mp (by omega)
  · rintro rfl
    simp [words_rstrip]

end Joined

section Printing

/-- `"(%d,%d)"` of the two halves of a community. -/
def formatCommunity (z : Nat) : Text := '(' :: Text.ofNat (z / 65536) ++ ',' :: Text.ofNat (z % 65536) ++ [')']

/-- The loop of `int_set_format`, which stops once `room` characters are exceeded: what is written, and the
communities that are left. -/
def intSetFormat (room : Nat) (separator buf : Text) : List Nat → Text × List Nat
  | [] => (buf, [])
  | z :: rest =>
      if room < buf.length then (buf, z :: rest)
      else intSetFormat room [' '] (buf ++ separator ++ formatCommunity z) rest

/-- The lines that `ea_show_int_set` prints after the first one. -/
def setLines (room : Nat) : Nat → List Nat → List Text
  | rounds + 1, z :: rest =>
      let (buf, left) := intSetFormat room [] [] (z :: rest)
      buf :: setLines room rounds left
  | _, _ => []

/-- `CLI_MSG_SIZE` -/
def cliMsgSize : Nat := 500

/-- The room on the first line, after the name of the attribute. -/
def firstRoom (name : Text) : Nat := cliMsgSize - (name.length + 2) - 24

/-- `ea_show_int_set` -/
def eaShowIntSet (name : Text) (set : List Nat) : Attribute :=
  let (buf, left) := intSetFormat (firstRoom name) [] [] set
  ⟨'\t' :: name ++ ": ".toList ++ buf ++ ['\n'],
    (setLines (cliMsgSize - 1 - 24) left.length left).map fun line => "\t\t".toList ++ line ++ ['\n']⟩

variable {room : Nat} {z : Nat} {set : List Nat}

theorem formatCommunity_ink : ∀ char ∈ formatCommunity z, isSpace char = false := by
  intro char member
  have digits {value : Nat} (inside : char ∈ Text.ofNat value) : isSpace char = false :=
    isSpace_digit (Text.isDigit_of_mem_ofNat inside)
  simp only [formatCommunity, List.mem_append, List.mem_cons, List.not_mem_nil, or_false] at member
  rcases member with ((rfl | inside) | rfl | inside) | rfl
  · decide
  · exact digits inside
  · decide
  · exact digits inside
  · decide

theorem words_formatCommunity : words (formatCommunity z) = [formatCommunity z] := by
  rw [words, List.splitOnP_eq_singleton fun char member => formatCommunity_ink char member]
  rfl

/-- The communities that are written and those that are left are the whole set. -/
theorem intSetFormat_split {separator buf : Text} (apart : separator = [' '] ∨ buf = [] ∧ separator = []) :
    ∃ taken, set = taken ++ (intSetFormat room separator buf set).2 ∧
      words (intSetFormat room separator buf set).1 = words buf ++ taken.map formatCommunity := by
  induction set generalizing separator buf with
  | nil => exact ⟨[], rfl, (List.append_nil _).symm⟩
  | cons z rest ih =>
      rw [intSetFormat]
      split
      · exact ⟨[], rfl, (List.append_nil _).symm⟩
      · obtain ⟨taken, whole, written⟩ := @ih [' '] (buf ++ separator ++ formatCommunity z) (.inl rfl)
        have first : words (buf ++ separator ++ formatCommunity z) = words buf ++ [formatCommunity z] := by
          rcases apart with rfl | ⟨rfl, rfl⟩
          · rw [List.append_assoc, ← words_formatCommunity]
            exact words_append_space (by decide) buf (formatCommunity z)
          · exact words_formatCommunity
        refine ⟨z :: taken, congrArg (z :: ·) whole, ?_⟩
        rw [written, first, List.append_assoc]
        rfl

theorem intSetFormat_line (room z : Nat) (rest : List Nat) :
    ∃ taken, rest = taken ++ (intSetFormat room [] [] (z :: rest)).2 ∧
      words (intSetFormat room [] [] (z :: rest)).1 = (z :: taken).map formatCommunity := by
  obtain ⟨taken, whole, written⟩ := @intSetFormat_split room rest [' '] (formatCommunity z) (.inl rfl)
  refine ⟨taken, whole, written.trans ?_⟩
  rw [words_formatCommunity]
  rfl

theorem setLines_items {rounds : Nat} (enough : set.length ≤ rounds) :
    (setLines room rounds set).flatMap words = set.map formatCommunity ∧ ∀ line ∈ setLines room rounds set, words line ≠ [] := by
  induction rounds generalizing set with
  | zero =>
      obtain rfl := List.length_eq_zero_iff.mp (Nat.le_zero.mp enough)
      exact ⟨rfl, nofun⟩
  | succ rounds ih =>
      cases set with
      | nil => exact ⟨rfl, nofun⟩
      | cons z rest =>
          obtain ⟨taken, whole, written⟩ := intSetFormat_line room z rest
          have fewer : (intSetFormat room [] [] (z :: rest)).2.length ≤ rounds := by
            have total := congrArg List.length whole
            rw [List.length_append] at total
            rw [List.length_cons] at enough
            omega
          obtain ⟨others, some_others⟩ := ih fewer
          rw [setLines]
          constructor
          · rw [List.flatMap_cons, others, written, ← List.map_append, List.cons_append, ← whole]
          · refine List.forall_mem_cons.mpr ⟨?_, some_others⟩
            exact written.trans_ne (List.cons_ne_nil _ _)

theorem not_mem_intSetFormat {char : Char} (outside : char.isDigit = false ∧ char ∉ ['(', ',', ')', ' '])
    {separator buf : Text} (apart : char ∉ separator) (free : char ∉ buf) :
    char ∉ (intSetFormat room separator buf set).1 := by
  obtain ⟨notDigit, other⟩ := outside
  have digits (value : Nat) : char ∉ Text.ofNat value := fun inside => by
    rw [Text.isDigit_of_mem_ofNat inside] at notDigit
    cases notDigit
  simp only [List.mem_cons, List.not_mem_nil, or_false, not_or] at other
  induction set generalizing separator buf with
  | nil => exact free
  | cons z rest ih =>
      rw [intSetFormat]
      split
      · exact free
      · exact ih (by simp [other]) (by simp [formatCommunity, free, apart, digits, other])

theorem bracket_mem_summary {line : Text} (matched : (Route.summaryRe.match? line).isSome = true) : '[' ∈ line := by
  obtain ⟨groups, rest, member⟩ := Regex.match?_isSome_iff.mp matched
  obtain ⟨_, _, _, net, member, _⟩ := Regex.mem_run_line_cons.mp member
  obtain ⟨_, _, _, spaces, member, _⟩ := Regex.mem_run_line_cons.mp member
  obtain ⟨_, _, _, via, member, _⟩ := Regex.mem_run_line_cons.mp member
  obtain ⟨_, _, _, bracket, _, _⟩ := Regex.mem_run_line_cons.mp member
  obtain ⟨_, rfl⟩ := Regex.mem_run_literal.mp bracket
  have left := (Regex.suffix_of_run via).trans ((Regex.suffix_of_run spaces).trans (Regex.suffix_of_run net))
  exact left.subset List.mem_cons_self

/-- A name that does not make a summary or a number of its line. -/
structure SetName (name : Text) : Prop where
  nonempty : name ≠ []
  start : name.head nonempty ≠ '\t'
  plain : ∀ char ∈ name, notColon char = true ∧ char ≠ '['
  text : Route.isInt (strip name) = false

variable {name : Text}

theorem line_eaShowIntSet (name : Text) (set : List Nat) :
    (eaShowIntSet name set).line =
      ('\t' :: name) ++ ':' :: ([' '] ++ (intSetFormat (firstRoom name) [] [] set).1 ++ ['\n']) := by
  simp [eaShowIntSet]

theorem SetName.noColon (isName : SetName name) : ∀ char ∈ '\t' :: name, notColon char = true :=
  List.forall_mem_cons.mpr ⟨by decide, fun char member => (isName.plain char member).1⟩

theorem data_eaShowIntSet (isName : SetName name) (set : List Nat) :
    afterColon (eaShowIntSet name set).line = [' '] ++ (intSetFormat (firstRoom name) [] [] set).1 ++ ['\n'] := by
  rw [line_eaShowIntSet, afterColon_append isName.noColon]

theorem match_eaShowIntSet (isName : SetName name) (set : List Nat) :
    ∃ desc tail, Route.detailsRe.match? (eaShowIntSet name set).line = some (("desc".toList, desc) :: tail) ∧
      strip desc = strip name := by
  have before : beforeColon (eaShowIntSet name set).line = '\t' :: name := by
    rw [line_eaShowIntSet, beforeColon_append isName.noColon]
  have described : Described (eaShowIntSet name set).line :=
    ⟨⟨_, by rw [before]; exact line_eaShowIntSet name set⟩, ['\t'], name, before, List.cons_ne_nil _ _,
      List.forall_mem_singleton.mpr rfl, isName.nonempty⟩
  have inline : ∀ char ∈ ' ' :: (intSetFormat (firstRoom name) [] [] set).1, isInline char = true := by
    refine List.forall_mem_cons.mpr ⟨by decide, fun char member => decide_eq_true ?_⟩
    rintro rfl
    exact not_mem_intSetFormat (by decide) List.not_mem_nil List.not_mem_nil member
  have later : ([("data".toList, ' ' :: (intSetFormat (firstRoom name) [] [] set).1)], ['\n']) ∈
      (Regex.line [.named "data" 1 isInline]).run (afterColon (eaShowIntSet name set).line) := by
    rw [data_eaShowIntSet isName, Regex.mem_run_line_cons]
    exact ⟨_, ['\n'], [], Regex.mem_run_named.mpr ⟨_, rfl, rfl, Nat.succ_pos _, inline⟩,
      Regex.mem_run_lineEnd.mpr ⟨rfl, rfl, .inr rfl⟩, rfl⟩
  obtain ⟨desc, tail, _, matched, same, _⟩ := match?_described described later
  rw [before] at same
  exact ⟨desc, tail, matched, same.trans (strip_append (List.forall_mem_singleton.mpr (by decide)) name)⟩

theorem isInt_eaShowIntSet (isName : SetName name) (set : List Nat) : (eaShowIntSet name set).isInt = false := by
  obtain ⟨desc, tail, matched, same⟩ := match_eaShowIntSet isName set
  have own : (eaShowIntSet name set).isInt = Route.isInt desc := by
    simp [Attribute.isInt, Attribute.desc, matched, Groups.group]
  rw [own, Bool.eq_false_iff]
  intro number
  have fixed : strip desc = desc := by
    rcases List.mem_pair.mp (of_decide_eq_true number) with rfl | rfl <;> decide
  rw [← fixed, same, isName.text] at number
  cases number

theorem eaShowIntSet_formed (isName : SetName name) (set : List Nat) : (eaShowIntSet name set).Formed := by
  refine ⟨?_, ?_, ?_, by simp [isInt_eaShowIntSet isName set], ?_⟩
  · obtain ⟨desc, tail, matched, _⟩ := match_eaShowIntSet isName set
    rw [matched]
    rfl
  · rw [Bool.eq_false_iff]
    intro summary
    have bracket := bracket_mem_summary summary
    have unnamed : '[' ∉ name := fun member => (isName.plain '[' member).2 rfl
    have unprinted : '[' ∉ (intSetFormat (firstRoom name) [] [] set).1 :=
      not_mem_intSetFormat (by decide) List.not_mem_nil List.not_mem_nil
    simp [line_eaShowIntSet, unnamed, unprinted] at bracket
  · obtain ⟨first, others, split⟩ := List.exists_cons_of_ne_nil isName.nonempty
    have different : first ≠ '\t' := by simpa [split] using isName.start
    simp [line_eaShowIntSet, split, isContinuation, List.cons_prefix_cons, different.symm]
  · intro line member
    obtain ⟨buf, _, rfl⟩ := List.mem_map.mp member
    rfl

/-- The communities of the set are the items of the lines, each of which has one. -/
theorem eaShowIntSet_items (isName : SetName name) (some_set : set ≠ []) :
    (afterColon (eaShowIntSet name set).line :: (eaShowIntSet name set).continuations).flatMap words =
        set.map formatCommunity ∧
      ∀ piece ∈ afterColon (eaShowIntSet name set).line :: (eaShowIntSet name set).continuations, words piece ≠ [] := by
  obtain ⟨z, rest, rfl⟩ := List.exists_cons_of_ne_nil some_set
  obtain ⟨taken, whole, written⟩ := intSetFormat_line (firstRoom name) z rest
  obtain ⟨others, some_others⟩ := @setLines_items (cliMsgSize - 1 - 24) _ _ (Nat.le_refl (intSetFormat (firstRoom name) [] [] (z :: rest)).2.length)
  have line (front buf : Text) (blank : ∀ char ∈ front, isSpace char = true) : words (front ++ buf ++ ['\n']) = words buf := by
    rw [words_append_blank (List.forall_mem_singleton.mpr rfl), words_blank_append blank]
  have first : words (afterColon (eaShowIntSet name (z :: rest)).line) = (z :: taken).map formatCommunity := by
    rw [data_eaShowIntSet isName, line _ _ (List.forall_mem_singleton.mpr rfl), written]
  have blank : ∀ char ∈ "\t\t".toList, isSpace char = true := by simp [isSpace]
  have tabs : words ∘ (fun buf => "\t\t".toList ++ buf ++ ['\n']) = words := funext fun buf => line _ buf blank
  rw [List.flatMap_cons, first]
  constructor
  · rw [eaShowIntSet, List.flatMap_map]
    change _ ++ List.flatMap (words ∘ fun buf => "\t\t".toList ++ buf ++ ['\n']) _ = _
    rw [tabs, others, ← List.map_append, List.cons_append, ← whole]
  · refine List.forall_mem_cons.mpr ⟨by rw [first]; exact List.cons_ne_nil _ _, List.forall_mem_map.mpr fun buf member => ?_⟩
    rw [line _ _ blank]
    exact some_others buf member

theorem setLines_eq_nil : setLines room set.length set = [] ↔ set = [] := by
  cases set with
  | nil => exact iff_of_true rfl rfl
  | cons z rest => exact iff_of_false (List.cons_ne_nil _ _) (List.cons_ne_nil _ _)

end Printing

section Listings

variable {limit : Nat} {text : Text} {blocks : List Block} {attr : Attribute}

/-- The items that an attribute is printed with. -/
def Attribute.items (attr : Attribute) : List Text := (afterColon attr.line :: attr.continuations).flatMap words

theorem showRoute_stored (listing : Text.splitLines text = blocks.flatMap Block.lines)
    (formed : ∀ block ∈ blocks, block.Formed) (enough : (Text.splitLines text).length < limit) {index : Nat} {block : Block}
    (here : blocks[index]? = some block) {before after : List Attribute} (split : block.attributes = before ++ attr :: after)
    (last : ∀ other ∈ after, other.name ≠ attr.name) (list : attr.isInt = false) :
    ∃ routes output reader route, showRoute limit true (.init (Text.splitLines text)) = .ok ((routes, output), reader) ∧
      routes[index]? = some route ∧
      route.attributes.get? attr.name = some (.str (joined (afterColon attr.line) attr.continuations)) := by
  obtain ⟨reader, done, _⟩ := showRoute_returns listing formed enough
  refine ⟨_, _, reader, _, done, getElem?_routesAfter here, ?_⟩
  have value : attr.value = .str (joined (afterColon attr.line) attr.continuations) := by
    rw [Attribute.value, if_neg (by simp [list])]
  rw [← value]
  refine get?_lasts.mpr ⟨before.map fun attr => (attr.name, attr.value), after.map fun attr => (attr.name, attr.value), ?_, ?_⟩
  · rw [Block.entries, split, List.map_append, List.map_cons]
  · simpa using last

/-- The items of an attribute are returned only if it is printed on one line. -/
theorem showRoute_wrapped_iff (listing : Text.splitLines text = blocks.flatMap Block.lines)
    (formed : ∀ block ∈ blocks, block.Formed) (enough : (Text.splitLines text).length < limit) {index : Nat} {block : Block}
    (here : blocks[index]? = some block) {before after : List Attribute} (split : block.attributes = before ++ attr :: after)
    (last : ∀ other ∈ after, other.name ≠ attr.name) (list : attr.isInt = false)
    (items : ∀ piece ∈ afterColon attr.line :: attr.continuations, words piece ≠ []) :
    ∃ routes output reader route value, showRoute limit true (.init (Text.splitLines text)) = .ok ((routes, output), reader) ∧
      routes[index]? = some route ∧ route.attributes.get? attr.name = some (.str value) ∧
      (words value = attr.items ↔ attr.continuations = []) := by
  obtain ⟨routes, output, reader, route, done, there, stored⟩ := showRoute_stored listing formed enough here split last list
  exact ⟨routes, output, reader, route, _, done, there, stored, words_joined_iff items⟩

theorem showRoute_eaShowIntSet_iff (listing : Text.splitLines text = blocks.flatMap Block.lines)
    (formed : ∀ block ∈ blocks, block.Formed) (enough : (Text.splitLines text).length < limit) {index : Nat} {block : Block}
    (here : blocks[index]? = some block) {name : Text} {set : List Nat} {before after : List Attribute}
    (split : block.attributes = before ++ eaShowIntSet name set :: after)
    (last : ∀ other ∈ after, other.name ≠ (eaShowIntSet name set).name) (isName : SetName name) (some_set : set ≠ []) :
    ∃ routes output reader route value, showRoute limit true (.init (Text.splitLines text)) = .ok ((routes, output), reader) ∧
      routes[index]? = some route ∧ route.attributes.get? (eaShowIntSet name set).name = some (.str value) ∧
      (words value = set.map formatCommunity ↔ (intSetFormat (firstRoom name) [] [] set).2 = []) := by
  obtain ⟨routes, output, reader, route, done, there, stored⟩ :=
    showRoute_stored listing formed enough here split last (isInt_eaShowIntSet isName set)
  refine ⟨routes, output, reader, route, _, done, there, stored, ?_⟩
  obtain ⟨items, some_items⟩ := eaShowIntSet_items isName some_set
  rw [← items, words_joined_iff some_items, eaShowIntSet, List.map_eq_nil_iff]
  exact setLines_eq_nil

end Listings

section Example

theorem setName_community : SetName "BGP.community".toList := ⟨by decide, by decide, by simp [notColon], by decide⟩

/-- A set that BIRD prints on two lines. -/
def wrappedSet : List Nat := (List.range 40).map (4294911760 + ·)

def wrappedAttribute : Attribute := eaShowIntSet "BGP.community".toList wrappedSet

def wrappedBlock : Block := ⟨"1/8 via x [u 1] i\n".toList, [wrappedAttribute]⟩

theorem wrappedBlock_formed : ∀ block ∈ [wrappedBlock], block.Formed :=
  List.forall_mem_singleton.mpr
    ⟨by decide +kernel, by decide, List.forall_mem_singleton.mpr (eaShowIntSet_formed setName_community wrappedSet)⟩

theorem wrappedBlock_lines : Text.splitLines wrappedBlock.lines.flatten = [wrappedBlock].flatMap Block.lines ∧
    wrappedAttribute.continuations ≠ [] ∧ ([wrappedBlock].flatMap Block.lines).length < 4 := by
  decide +kernel

theorem wrappedBlock_length : (Text.splitLines wrappedBlock.lines.flatten).length < 4 := by
  rw [wrappedBlock_lines.1]
  exact wrappedBlock_lines.2.2

theorem wrappedBlock_first : [wrappedBlock][0]? = some wrappedBlock := rfl

theorem wrappedBlock_split : wrappedBlock.attributes = [] ++ wrappedAttribute :: [] := rfl

theorem wrappedAttribute_isText : wrappedAttribute.isInt = false := isInt_eaShowIntSet setName_community wrappedSet

theorem wrappedAttribute_items :
    ∀ piece ∈ afterColon wrappedAttribute.line :: wrappedAttribute.continuations, words piece ≠ [] :=
  (eaShowIntSet_items setName_community (by decide)).2

theorem showRoute_wrapped_iff_example :
    ∃ routes output reader route value,
      showRoute 4 true (.init (Text.splitLines wrappedBlock.lines.flatten)) = .ok ((routes, output), reader) ∧
      routes[0]? = some route ∧ route.attributes.get? wrappedAttribute.name = some (.str value) ∧
      (words value = wrappedAttribute.items ↔ wrappedAttribute.continuations = []) :=
  showRoute_wrapped_iff wrappedBlock_lines.1 wrappedBlock_formed wrappedBlock_length wrappedBlock_first wrappedBlock_split
    (List.forall_mem_nil _) wrappedAttribute_isText wrappedAttribute_items

/-- The items are not returned, although the value has all their characters. -/
theorem wrapped_items_merged :
    ∃ routes output reader route value,
      showRoute 4 true (.init (Text.splitLines wrappedBlock.lines.flatten)) = .ok ((routes, output), reader) ∧
      routes[0]? = some route ∧ route.attributes.get? wrappedAttribute.name = some (.str value) ∧
      words value ≠ wrappedAttribute.items := by
  obtain ⟨routes, output, reader, route, done, there, stored⟩ :=
    showRoute_stored wrappedBlock_lines.1 wrappedBlock_formed wrappedBlock_length wrappedBlock_first wrappedBlock_split
      (List.forall_mem_nil _) wrappedAttribute_isText
  exact ⟨routes, output, reader, route, _, done, there, stored, fun same =>
    wrappedBlock_lines.2.1 ((words_joined_iff wrappedAttribute_items).mp same)⟩

end Example

end ActiveBgp.Bird

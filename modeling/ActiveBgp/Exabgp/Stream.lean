import ActiveBgp.Exabgp.Reader

namespace ActiveBgp.Exabgp

open ActiveBgp.Python ActiveBgp.Data

/-! # A stream of messages, cut anywhere

A line's object is returned by the read that completes it, which may be one read
before its newline arrives; the newline alone then adds nothing.
-/

variable {μ : Type} {loads : Text → Except JsonError μ}

def Ascii (text : Text) : Prop := ∀ char ∈ text, char.toNat < 128

/-- The bytes of an ASCII text. -/
def encode (text : Text) : Bytes := text.map fun char => char.toNat.toUInt8

/-- What `json.loads` does with the lines of a stream: nothing that is empty or begins with the letter d is JSON. -/
structure Json (loads : Text → Except JsonError μ) : Prop where
  empty : loads [] = .error .decodeError
  letter : ∀ rest, loads ('d' :: rest) = .error .decodeError

/-- The text of an object is accepted, and no proper beginning of it. -/
structure IsObject (loads : Text → Except JsonError μ) (text : Text) : Prop where
  accepted : ∃ value, loads text = .ok value
  rejected : ∀ head, head <+: text → head ≠ text → loads head = .error .decodeError

structure StreamLine (loads : Text → Except JsonError μ) (line : Text) : Prop where
  ascii : Ascii line
  oneLine : '\n' ∉ line
  content : line = "done".toList ∨ IsObject loads line

/-- The object on a line, if it is not `done`. -/
def object (loads : Text → Except JsonError μ) (line : Text) : Option μ :=
  if line = "done".toList then none else (loads line).toOption

def stream (lines : List Text) : Bytes := terminated newline (lines.map encode)

section Encoding

theorem utf8EncodeChar_ascii {char : Char} (ascii : char.toNat < 128) :
    String.utf8EncodeChar char = [char.toNat.toUInt8] := by
  have size : char.utf8Size = 1 := by
    rw [Char.utf8Size_eq_one_iff]
    exact Nat.le_of_lt_succ ascii
  rw [String.utf8EncodeChar_eq_singleton size]
  rfl

theorem decode_encode {text : Text} (ascii : Ascii text) : decode (encode text) = some text := by
  have encoded : text.flatMap String.utf8EncodeChar = encode text := by
    rw [encode, List.map_eq_flatMap]
    exact List.flatMap_congr fun char member => utf8EncodeChar_ascii (ascii char member)
  rw [decode, ← encoded]
  change (List.utf8Encode text).utf8Decode?.map Array.toList = some text
  rw [List.utf8Decode?_utf8Encode]
  rfl

theorem encode_eq_done {text : Text} (ascii : Ascii text) : encode text = done ↔ text = "done".toList := by
  constructor
  · intro same
    have decoded := decode_encode ascii
    rw [same] at decoded
    have literal : decode done = some "done".toList := by decide +kernel
    exact Option.some.inj (decoded.symm.trans literal)
  · rintro rfl
    rfl

theorem newline_not_mem_encode {text : Text} (ascii : Ascii text) (oneLine : '\n' ∉ text) : newline ∉ encode text := by
  intro member
  obtain ⟨char, inside, same⟩ := List.mem_map.mp member
  have bound := ascii char inside
  have value := congrArg UInt8.toNat same
  have ten : char.toNat % 256 = 10 := value
  rw [Nat.mod_eq_of_lt (by omega)] at ten
  have feed : char = '\n' := Char.toNat_inj.mp ten
  exact oneLine (feed ▸ inside)

end Encoding

section Lines

variable {line head : Text}

theorem Ascii.of_isPrefix (ascii : Ascii line) (start : head <+: line) : Ascii head :=
  fun char member => ascii char (start.subset member)

theorem StreamLine.digestible (streamed : StreamLine loads line) : Digestible loads (encode line) := by
  rcases streamed.content with rfl | isObject
  · exact .inl rfl
  · obtain ⟨value, accepted⟩ := isObject.accepted
    exact .inr ⟨line, decode_encode streamed.ascii, by simp [accepted]⟩

theorem StreamLine.message_eq (streamed : StreamLine loads line) : message loads (encode line) = object loads line := by
  rw [message, object, decode_encode streamed.ascii]
  exact if_congr (encode_eq_done streamed.ascii) rfl rfl

theorem StreamLine.not_kept (streamed : StreamLine loads line) : kept loads (encode line) = false := by
  rcases streamed.content with rfl | isObject
  · exact kept_done
  · obtain ⟨value, accepted⟩ := isObject.accepted
    exact kept_ok (decode_encode streamed.ascii) accepted

theorem StreamLine.head_kept (json : Json loads) (streamed : StreamLine loads line) (start : head <+: line)
    (proper : head ≠ line) : kept loads (encode head) = true := by
  have ascii := streamed.ascii.of_isPrefix start
  have rejected : loads head = .error .decodeError := by
    rcases streamed.content with rfl | isObject
    · cases head with
      | nil => exact json.empty
      | cons char rest =>
          have first : char = 'd' := by
            obtain ⟨more, whole⟩ := start
            exact (List.cons.inj whole).1
          subst first
          exact json.letter rest
    · exact isObject.rejected head start proper
  refine kept_iff.mpr ⟨fun isDone => ?_, head, decode_encode ascii, rejected⟩
  have literal := (encode_eq_done ascii).mp isDone
  rcases streamed.content with rfl | isObject
  · exact proper literal
  · obtain ⟨value, accepted⟩ := isObject.accepted
    obtain ⟨more, rfl⟩ := start
    rw [literal] at accepted
    rw [show "done".toList ++ more = 'd' :: ("one".toList ++ more) from rfl, json.letter] at accepted
    cases accepted

end Lines

section Cuts

/-- What is still to come: the rest of the line in the buffer and further lines, or the newline of a line
that has been returned. -/
def Pending (ibuf rest : Bytes) (lines : List Text) : Prop :=
  newline ∉ ibuf ∧ ibuf ++ rest = stream lines ∨ ibuf = [] ∧ rest = newline :: stream lines

theorem stream_cons (line : Text) (rest : List Text) : stream (line :: rest) = encode line ++ newline :: stream rest := by
  rw [stream, List.map_cons, terminated_cons]
  rfl

theorem messages_encode {lines : List Text} (streamed : ∀ line ∈ lines, StreamLine loads line) :
    (lines.map encode).filterMap (message loads) = lines.filterMap (object loads) := by
  rw [List.filterMap_map]
  exact List.filterMap_congr fun line member => (streamed line member).message_eq

theorem kept_nil (json : Json loads) : kept loads [] = true :=
  kept_iff.mpr ⟨by decide, [], decode_nil, json.empty⟩

theorem digestible_kept {line : Bytes} (stays : kept loads line = true) : Digestible loads line := by
  obtain ⟨_, text, decoded, rejected⟩ := kept_iff.mp stays
  exact .inr ⟨text, decoded, by simp [rejected]⟩

/-- The last line of the data is empty, a part of a line or a line without its newline. -/
theorem opened_cases (json : Json loads) {lines : List Text} (streamed : ∀ line ∈ lines, StreamLine loads line)
    {opened later : Bytes} (free : newline ∉ opened) (cut : opened ++ later = stream lines) :
    ∃ left, (∀ line ∈ left, StreamLine loads line) ∧ Digestible loads opened ∧
      Pending (if kept loads opened = true then opened else []) later left ∧
      (message loads opened).toList ++ left.filterMap (object loads) = lines.filterMap (object loads) := by
  cases lines with
  | nil =>
      obtain ⟨rfl, rfl⟩ := List.append_eq_nil_iff.mp cut
      have stays := kept_nil json
      refine ⟨[], streamed, digestible_kept stays, ?_, ?_⟩
      · rw [if_pos stays]
        exact .inl ⟨free, rfl⟩
      · rw [message_kept stays]
        rfl
  | cons line rest =>
      obtain ⟨now, others⟩ := List.forall_mem_cons.mp streamed
      obtain ⟨more, whole, rfl⟩ := cut_within free (cut.trans (stream_cons line rest))
      obtain ⟨head, tail, rfl, rfl, rfl⟩ := List.map_eq_append_iff.mp whole
      change ∃ left, (∀ line ∈ left, StreamLine loads line) ∧ Digestible loads (encode head) ∧ _
      by_cases complete : tail = []
      · subst complete
        rw [List.append_nil] at now
        refine ⟨rest, others, now.digestible, ?_, ?_⟩
        · change Pending (if kept loads (encode head) = true then encode head else []) _ rest
          rw [if_neg (by simp [now.not_kept])]
          exact .inr ⟨rfl, rfl⟩
        · change (message loads (encode head)).toList ++ _ = _
          rw [now.message_eq, List.append_nil]
          cases value : object loads head <;> simp [value]
      · have stays : kept loads (encode head) = true :=
          now.head_kept json (List.prefix_append head tail) (by simpa using complete)
        refine ⟨(head ++ tail) :: rest, streamed, digestible_kept stays, ?_, ?_⟩
        · change Pending (if kept loads (encode head) = true then encode head else []) _ _
          rw [if_pos stays]
          exact .inl ⟨free, cut⟩
        · change (message loads (encode head)).toList ++ _ = _
          rw [message_kept stays]
          rfl

theorem stream_cut (json : Json loads) {lines : List Text} (streamed : ∀ line ∈ lines, StreamLine loads line)
    {data later : Bytes} (cut : data ++ later = stream lines) :
    ∃ left, (∀ line ∈ left, StreamLine loads line) ∧ (∀ line ∈ data.splitOn newline, Digestible loads line) ∧
      Pending (leftover loads (data.splitOn newline)) later left ∧
      (data.splitOn newline).filterMap (message loads) ++ left.filterMap (object loads) =
        lines.filterMap (object loads) := by
  have free : ∀ record ∈ lines.map encode, newline ∉ record := by
    intro record member
    obtain ⟨line, inside, rfl⟩ := List.mem_map.mp member
    exact newline_not_mem_encode (streamed line inside).ascii (streamed line inside).oneLine
  obtain ⟨whole, rest, opened, records, rfl, unbroken, remains⟩ := terminated_cut free cut
  obtain ⟨ready, waiting, rfl, rfl, rfl⟩ := List.map_eq_append_iff.mp records
  have early : ∀ line ∈ ready, StreamLine loads line := fun line member => streamed line (List.mem_append_left _ member)
  have late : ∀ line ∈ waiting, StreamLine loads line := fun line member => streamed line (List.mem_append_right _ member)
  obtain ⟨left, good, fine, pending, same⟩ := opened_cases json late unbroken remains
  have lines_eq : (terminated newline (ready.map encode) ++ opened).splitOn newline = ready.map encode ++ [opened] := by
    rw [splitOn_terminated fun record member => free record (by simp [records, member]),
      List.splitOn_eq_singleton unbroken]
  rw [lines_eq, leftover_concat]
  refine ⟨left, good, ?_, pending, ?_⟩
  · intro line member
    rcases List.mem_append.mp member with front | back
    · obtain ⟨text, inside, rfl⟩ := List.mem_map.mp front
      exact (early text inside).digestible
    · rwa [List.mem_singleton.mp back]
  · rw [List.filterMap_append, messages_encode early, messages_cons, List.filterMap_nil, List.append_nil, List.append_assoc,
      same, List.filterMap_append]

end Cuts

namespace ExaBGP

section Runs

theorem read_stream (json : Json loads) {lines : List Text} (streamed : ∀ line ∈ lines, StreamLine loads line)
    {ibuf chunk later : Bytes} (nonempty : chunk ≠ []) (pending : Pending ibuf (chunk ++ later) lines) :
    ∃ messages after left, read loads .bufferedReader chunk ⟨ibuf⟩ = .ok messages ⟨after⟩ ∧
      (∀ line ∈ left, StreamLine loads line) ∧ Pending after later left ∧
      messages ++ left.filterMap (object loads) = lines.filterMap (object loads) := by
  have some_data : ibuf ++ chunk ≠ [] := by simp [nonempty]
  rcases pending with ⟨_, unfinished⟩ | ⟨rfl, ended⟩
  · rw [← List.append_assoc] at unfinished
    obtain ⟨left, good, fine, pending, same⟩ := stream_cut json streamed unfinished
    exact ⟨_, _, left, read_ok some_data fine, good, pending, same⟩
  · obtain ⟨byte, data, rfl⟩ := List.exists_cons_of_ne_nil nonempty
    obtain ⟨rfl, cut⟩ := List.cons.inj ended
    obtain ⟨left, good, fine, pending, same⟩ := stream_cut json streamed cut
    -- The newline is an empty line in front of the data.
    have lines_eq : (newline :: data).splitOn newline = [] :: data.splitOn newline := by
      simpa using List.splitOn_append_cons_self_of_not_mem (List.not_mem_nil) data
    have nothing := kept_nil json
    refine ⟨_, _, left, read_ok some_data ?_, good, ?_, ?_⟩
    · rw [List.nil_append, lines_eq]
      exact List.forall_mem_cons.mpr ⟨digestible_kept nothing, fine⟩
    · rwa [List.nil_append, lines_eq, leftover_cons_of_ne_nil (List.splitOn_ne_nil newline data)]
    · rw [List.nil_append, lines_eq, List.filterMap_cons_none (message_kept nothing), same]

theorem reads_stream (json : Json loads) {lines : List Text} (streamed : ∀ line ∈ lines, StreamLine loads line)
    {ibuf : Bytes} {chunks : List Bytes} (nonempty : ∀ chunk ∈ chunks, chunk ≠ [])
    (pending : Pending ibuf chunks.flatten lines) :
    ∃ messages after, reads loads .bufferedReader chunks ⟨ibuf⟩ = .ok messages after ∧
      messages.flatten = lines.filterMap (object loads) := by
  induction chunks generalizing ibuf lines with
  | nil =>
      cases lines with
      | nil => exact ⟨[], ⟨ibuf⟩, reads_nil, rfl⟩
      | cons line rest =>
          rcases pending with ⟨unbroken, same⟩ | ⟨_, ended⟩
          · rw [List.flatten_nil, List.append_nil, stream_cons] at same
            exact absurd (same ▸ List.mem_append_right _ List.mem_cons_self) unbroken
          · cases ended
  | cons chunk rest ih =>
      obtain ⟨now, others⟩ := List.forall_mem_cons.mp nonempty
      rw [List.flatten_cons] at pending
      obtain ⟨first, middle, left, returns, good, still, same⟩ := read_stream json streamed now pending
      obtain ⟨later, after, returns', same'⟩ := ih good others still
      refine ⟨first :: later, after, ?_, ?_⟩
      · rw [reads_cons, returns]
        simp only [returns']
      · rw [List.flatten_cons, same', same]

/-- The reads of a cut stream return its objects exactly if `sys.stdin` is a buffered reader or is never read. -/
theorem stream_read_iff (json : Json loads) (lines : List Text) (streamed : ∀ line ∈ lines, StreamLine loads line)
    (chunks : List Bytes) (nonempty : ∀ chunk ∈ chunks, chunk ≠ []) (cut : chunks.flatten = stream lines) (stdin : Stdin) :
    (∃ messages after, reads loads stdin chunks .init = .ok messages after ∧
      messages.flatten = lines.filterMap (object loads)) ↔ stdin = .bufferedReader ∨ chunks = [] := by
  have pending : Pending [] chunks.flatten lines := .inl ⟨List.not_mem_nil, cut⟩
  constructor
  · rintro ⟨messages, after, returns, _⟩
    cases stdin with
    | bufferedReader => exact .inl rfl
    | textIOWrapper =>
        cases chunks with
        | nil => exact .inr rfl
        | cons chunk rest =>
            rw [reads_cons, read_textIOWrapper] at returns
            cases returns
  · rintro (rfl | rfl)
    · exact reads_stream json streamed nonempty pending
    · obtain ⟨messages, after, returns, same⟩ := reads_stream json streamed nonempty pending
      exact ⟨messages, after, returns, same⟩

end Runs

section Example

theorem json_loadsEmpty : Json loadsEmpty where
  empty := rfl
  letter _ := if_neg (by simp)

theorem streamLine_empty : StreamLine loadsEmpty "{}".toList where
  ascii := by simp [Ascii]
  oneLine := by decide
  content := .inr ⟨⟨⟨⟩, rfl⟩, fun _ _ proper => if_neg proper⟩

theorem streamLine_done : StreamLine loadsEmpty "done".toList where
  ascii := by simp [Ascii]
  oneLine := by decide
  content := .inl rfl

theorem text_wrapper_unread : [[123, 125, 10]].flatten = stream ["{}".toList] ∧
    ∀ messages after, reads loadsEmpty .textIOWrapper [[123, 125, 10]] .init ≠ .ok messages after :=
  ⟨rfl, nofun⟩

/-- The first object is returned before its newline arrives, and `done` is cut. -/
theorem stream_read_iff_example :
    (∃ messages after, reads loadsEmpty .bufferedReader
        [[123], [125], [10, 100], [111, 110, 101, 10, 123, 125, 10]] .init = .ok messages after ∧
      messages.flatten = ["{}".toList, "done".toList, "{}".toList].filterMap (object loadsEmpty)) ↔
      Stdin.bufferedReader = .bufferedReader ∨
        ([[123], [125], [10, 100], [111, 110, 101, 10, 123, 125, 10]] : List Bytes) = [] :=
  stream_read_iff json_loadsEmpty ["{}".toList, "done".toList, "{}".toList]
    (List.forall_mem_cons.mpr ⟨streamLine_empty, List.forall_mem_cons.mpr ⟨streamLine_done, by simpa using streamLine_empty⟩⟩)
    [[123], [125], [10, 100], [111, 110, 101, 10, 123, 125, 10]] (by decide) rfl .bufferedReader

end Example

end ExaBGP

end ActiveBgp.Exabgp

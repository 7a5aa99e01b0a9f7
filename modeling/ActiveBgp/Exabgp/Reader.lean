import ActiveBgp.Python.Effect
import ActiveBgp.Data.Records

namespace ActiveBgp.Exabgp

open ActiveBgp.Python ActiveBgp.Data

abbrev Bytes := List UInt8

/-- `b'\n'` -/
def newline : UInt8 := 10

/-- `b'done'` -/
def done : Bytes := [100, 111, 110, 101]

/-- `bytes.decode()`, which is strict UTF-8. -/
def decode (bytes : Bytes) : Option Text := bytes.toByteArray.utf8Decode?.map Array.toList

/-- What `sys.stdin` is.  Python starts with a text wrapper, and `sys.stdin.detach()`,
which would leave the buffered reader, is commented out. -/
inductive Stdin where
  | textIOWrapper
  | bufferedReader
deriving DecidableEq, Repr

/-- Only the buffered reader has a `read1`; `chunk` is what the pipe delivers. -/
def Stdin.read1 : Stdin → Bytes → Except PyError Bytes
  | .textIOWrapper, _ => .error .attributeError
  | .bufferedReader, chunk => .ok chunk

/-- What `json.loads` raises: a `JSONDecodeError` or anything else. -/
inductive JsonError where
  | decodeError
  | raised (error : PyError)
deriving DecidableEq, Repr

structure ExaBGP where
  ibuf : Bytes
deriving DecidableEq, Repr

def ExaBGP.init : ExaBGP := ⟨[]⟩

/-- `data[-1] != '\n'`: a byte is an int, which no str is equal to. -/
def differs (_byte : UInt8) (_text : Text) : Bool := true

variable {μ : Type} (loads : Text → Except JsonError μ)

namespace ExaBGP

/-- The loop of `read` over the lines that are left. -/
def readLines (data : Bytes) (count : Nat) : Nat → List Bytes → List μ → Effect ExaBGP (List μ)
  | _, [], messages => do
      set (⟨[]⟩ : ExaBGP)
      return messages
  | idx, line :: rest, messages =>
      if line = done then readLines data count (idx + 1) rest messages else
      match decode line with
      | none => throw (.valueError "UnicodeDecodeError".toList)
      | some text =>
          match loads text with
          | .ok message => readLines data count (idx + 1) rest (messages ++ [message])
          | .error (.raised error) => throw error
          | .error .decodeError => do
              if idx + 1 = count then
                let last ← Effect.ofExcept (orRaise .indexError data.getLast?)
                if differs last ['\n'] then
                  set (⟨line⟩ : ExaBGP)
                  return messages
              -- The line is logged and left out.
              readLines data count (idx + 1) rest messages

def read (stdin : Stdin) (chunk : Bytes) : Effect ExaBGP (List μ) := do
  let delivered ← Effect.ofExcept (stdin.read1 chunk)
  let data := (← get).ibuf ++ delivered
  let lines := data.splitOn newline
  readLines loads data lines.length 0 lines []

/-- One call of `read` for each chunk. -/
def reads (stdin : Stdin) (chunks : List Bytes) : Effect ExaBGP (List (List μ)) := chunks.mapM (read loads stdin)

end ExaBGP

section Lines

/-- `read` can go on after the line. -/
def Digestible (line : Bytes) : Prop :=
  line = done ∨ ∃ text, decode line = some text ∧ ∀ error, loads text ≠ .error (.raised error)

/-- The line is not JSON, so it stays in the buffer if it is the last one. -/
def kept (line : Bytes) : Bool :=
  line ≠ done ∧ ((decode line).map fun text => match loads text with
    | .error .decodeError => true
    | _ => false) = some true

/-- The message that a line adds. -/
def message (line : Bytes) : Option μ :=
  if line = done then none else (decode line).bind fun text => (loads text).toOption

def leftover (lines : List Bytes) : Bytes := (lines.getLast?.filter (kept loads)).getD []

variable {loads} {line : Bytes}

theorem kept_iff : kept loads line = true ↔
    line ≠ done ∧ ∃ text, decode line = some text ∧ loads text = .error .decodeError := by
  rw [kept, decide_eq_true_iff]
  refine and_congr_right fun _ => ?_
  cases decode line with
  | none => simp
  | some text =>
      rcases json : loads text with (_ | error) | value <;> simp [json]

theorem decode_nil : decode [] = some [] := by decide +kernel

theorem kept_done : kept loads done = false := by
  simp [kept]

theorem message_done : message loads done = none := if_pos rfl

theorem message_kept (stays : kept loads line = true) : message loads line = none := by
  obtain ⟨other, text, decoded, rejected⟩ := kept_iff.mp stays
  rw [message, if_neg other, decoded, Option.bind_some, rejected]
  rfl

theorem message_ok {text : Text} {value : μ} (other : line ≠ done) (decoded : decode line = some text)
    (accepted : loads text = .ok value) : message loads line = some value := by
  rw [message, if_neg other, decoded, Option.bind_some, accepted]
  rfl

theorem kept_ok {text : Text} {value : μ} (decoded : decode line = some text) (accepted : loads text = .ok value) :
    kept loads line = false := by
  simp [kept, decoded, accepted]

theorem messages_cons (line : Bytes) (rest : List Bytes) :
    (line :: rest).filterMap (message loads) = (message loads line).toList ++ rest.filterMap (message loads) := by
  cases added : message loads line <;> simp [added]

@[simp] theorem leftover_nil : leftover loads [] = [] := rfl

theorem leftover_concat (lines : List Bytes) (last : Bytes) :
    leftover loads (lines ++ [last]) = if kept loads last = true then last else [] := by
  rw [leftover, List.getLast?_concat, Option.filter_some]
  split <;> rfl

theorem leftover_singleton (last : Bytes) : leftover loads [last] = if kept loads last = true then last else [] :=
  leftover_concat [] last

theorem leftover_cons_of_ne_nil {rest : List Bytes} (more : rest ≠ []) :
    leftover loads (line :: rest) = leftover loads rest := by
  rw [leftover, leftover, List.getLast?_cons_of_ne_nil more]

theorem leftover_cons_of_not_kept (leaves : kept loads line = false) (rest : List Bytes) :
    leftover loads (line :: rest) = leftover loads rest := by
  by_cases more : rest = []
  · subst more
    rw [leftover_singleton, leaves, if_neg Bool.false_ne_true, leftover_nil]
  · exact leftover_cons_of_ne_nil more

end Lines

namespace ExaBGP

variable {loads} {data : Bytes} {count : Nat}

theorem readLines_done (idx : Nat) (rest : List Bytes) (messages : List μ) :
    readLines loads data count idx (done :: rest) messages = readLines loads data count (idx + 1) rest messages := by
  rw [readLines, if_pos rfl]

theorem readLines_undecodable {line : Bytes} (undecodable : decode line = none) (idx : Nat) (rest : List Bytes)
    (messages : List μ) (state : ExaBGP) :
    readLines loads data count idx (line :: rest) messages state =
      .error (.valueError "UnicodeDecodeError".toList) state := by
  have other : line ≠ done := by
    rintro rfl
    exact absurd undecodable (by decide +kernel)
  rw [readLines, if_neg other, undecodable]
  rfl

theorem readLines_message {line : Bytes} {text : Text} {value : μ} (other : line ≠ done) (decoded : decode line = some text)
    (accepted : loads text = .ok value) (idx : Nat) (rest : List Bytes) (messages : List μ) :
    readLines loads data count idx (line :: rest) messages =
      readLines loads data count (idx + 1) rest (messages ++ [value]) := by
  rw [readLines, if_neg other, decoded]
  simp only [accepted]

theorem readLines_skip {line : Bytes} (rejected : kept loads line = true) {idx : Nat} (more : idx + 1 ≠ count)
    (rest : List Bytes) (messages : List μ) :
    readLines loads data count idx (line :: rest) messages = readLines loads data count (idx + 1) rest messages := by
  obtain ⟨other, text, decoded, raises⟩ := kept_iff.mp rejected
  rw [readLines, if_neg other, decoded]
  simp only [raises, if_neg more]

theorem readLines_keep {line : Bytes} (rejected : kept loads line = true) {idx : Nat} (last : idx + 1 = count)
    (rest : List Bytes) (messages : List μ) (state : ExaBGP) :
    readLines loads data count idx (line :: rest) messages state =
      if data = [] then .error .indexError state else .ok messages ⟨line⟩ := by
  obtain ⟨other, text, decoded, raises⟩ := kept_iff.mp rejected
  rw [readLines, if_neg other, decoded]
  simp only [raises, if_pos last, Effect.bind_eq]
  cases ends : data.getLast? with
  | none => simp [List.getLast?_eq_none_iff.mp ends, orRaise]
  | some byte =>
      have nonempty : data ≠ [] := by
        rintro rfl
        cases ends
      simp [nonempty, orRaise, differs, Effect.bind_eq]

theorem readLines_ok (nonempty : data ≠ []) {lines : List Bytes} (fine : ∀ line ∈ lines, Digestible loads line)
    (idx : Nat) (place : idx + lines.length = count) (messages : List μ) (state : ExaBGP) :
    readLines loads data count idx lines messages state =
      .ok (messages ++ lines.filterMap (message loads)) ⟨leftover loads lines⟩ := by
  induction lines generalizing idx messages with
  | nil => simp [readLines, Effect.bind_eq]
  | cons line rest ih =>
      obtain ⟨now, later⟩ := List.forall_mem_cons.mp fine
      rw [List.length_cons] at place
      have next := ih later (idx + 1) (by omega)
      rcases now with rfl | ⟨text, decoded, calm⟩
      · rw [readLines_done, next, List.filterMap_cons_none message_done, leftover_cons_of_not_kept kept_done]
      · by_cases isDone : line = done
        · subst isDone
          rw [readLines_done, next, List.filterMap_cons_none message_done, leftover_cons_of_not_kept kept_done]
        · rcases json : loads text with (_ | error) | value
          · have rejected : kept loads line = true := kept_iff.mpr ⟨isDone, text, decoded, json⟩
            by_cases last : rest = []
            · subst last
              rw [readLines_keep rejected (by simpa using place), if_neg nonempty]
              simp [message_kept rejected, leftover_singleton, rejected]
            · have further : idx + 1 ≠ count := by
                have := List.length_pos_of_ne_nil last
                omega
              rw [readLines_skip rejected further, next, List.filterMap_cons_none (message_kept rejected),
                leftover_cons_of_ne_nil last]
          · exact absurd json (calm error)
          · rw [readLines_message isDone decoded json, next, List.filterMap_cons_some (message_ok isDone decoded json),
              leftover_cons_of_not_kept (kept_ok decoded json), List.append_assoc, List.singleton_append]

theorem readLines_digestible {lines : List Bytes} {idx : Nat} (place : idx + lines.length = count) {messages result : List μ}
    {state after : ExaBGP} (returns : readLines loads data count idx lines messages state = .ok result after) :
    ∀ line ∈ lines, Digestible loads line := by
  induction lines generalizing idx messages with
  | nil => simp
  | cons line rest ih =>
      rw [List.length_cons] at place
      by_cases isDone : line = done
      · subst isDone
        rw [readLines_done] at returns
        exact List.forall_mem_cons.mpr ⟨.inl rfl, ih (by omega) returns⟩
      · cases decoded : decode line with
        | none =>
            rw [readLines_undecodable decoded] at returns
            cases returns
        | some text =>
            rcases json : loads text with (_ | error) | value
            · have rejected : kept loads line = true := kept_iff.mpr ⟨isDone, text, decoded, json⟩
              have now : Digestible loads line := .inr ⟨text, decoded, by simp [json]⟩
              by_cases last : idx + 1 = count
              · have none_left : rest = [] := List.eq_nil_of_length_eq_zero (by omega)
                subst none_left
                simpa using now
              · rw [readLines_skip rejected last] at returns
                exact List.forall_mem_cons.mpr ⟨now, ih (by omega) returns⟩
            · rw [readLines, if_neg isDone, decoded] at returns
              simp only [json] at returns
              cases returns
            · rw [readLines_message isDone decoded json] at returns
              exact List.forall_mem_cons.mpr ⟨.inr ⟨text, decoded, by simp [json]⟩, ih (by omega) returns⟩

section Read

variable {stdin : Stdin} {chunk : Bytes} {state : ExaBGP}

theorem read_textIOWrapper : read loads .textIOWrapper chunk state = .error .attributeError state := rfl

theorem read_bufferedReader : read loads .bufferedReader chunk state =
    readLines loads (state.ibuf ++ chunk) ((state.ibuf ++ chunk).splitOn newline).length 0
      ((state.ibuf ++ chunk).splitOn newline) [] state := rfl

theorem read_ok (nonempty : state.ibuf ++ chunk ≠ [])
    (fine : ∀ line ∈ (state.ibuf ++ chunk).splitOn newline, Digestible loads line) :
    read loads .bufferedReader chunk state = .ok (((state.ibuf ++ chunk).splitOn newline).filterMap (message loads))
      ⟨leftover loads ((state.ibuf ++ chunk).splitOn newline)⟩ := by
  rw [read_bufferedReader, readLines_ok nonempty fine 0 (Nat.zero_add _), List.nil_append]

theorem read_nothing (rejects : loads [] = .error .decodeError) (empty : state.ibuf ++ chunk = []) :
    read loads .bufferedReader chunk state = .error .indexError state := by
  have rejected : kept loads [] = true := kept_iff.mpr ⟨by decide, [], decode_nil, rejects⟩
  rw [read_bufferedReader, empty, List.splitOn_nil]
  exact (readLines_keep rejected rfl [] [] state).trans (if_pos rfl)

theorem read_undecodable {line : Bytes} (undecodable : decode line = none) (single : newline ∉ line) :
    read loads .bufferedReader line .init = .error (.valueError "UnicodeDecodeError".toList) .init := by
  rw [read_bufferedReader]
  change readLines loads line (line.splitOn newline).length 0 (line.splitOn newline) [] .init = _
  rw [List.splitOn_eq_singleton single]
  exact readLines_undecodable undecodable 0 [] [] .init

theorem read_ok_iff (rejects : loads [] = .error .decodeError) {messages : List μ} {after : ExaBGP} :
    read loads stdin chunk state = .ok messages after ↔
      stdin = .bufferedReader ∧ state.ibuf ++ chunk ≠ [] ∧
      (∀ line ∈ (state.ibuf ++ chunk).splitOn newline, Digestible loads line) ∧
      messages = ((state.ibuf ++ chunk).splitOn newline).filterMap (message loads) ∧
      after = ⟨leftover loads ((state.ibuf ++ chunk).splitOn newline)⟩ := by
  constructor
  · intro returns
    cases stdin with
    | textIOWrapper => cases returns
    | bufferedReader =>
        have nonempty : state.ibuf ++ chunk ≠ [] := by
          intro empty
          rw [read_nothing rejects empty] at returns
          cases returns
        have fine := readLines_digestible (Nat.zero_add _) returns
        rw [read_ok nonempty fine] at returns
        cases returns
        exact ⟨rfl, nonempty, fine, rfl, rfl⟩
  · rintro ⟨rfl, nonempty, fine, rfl, rfl⟩
    exact read_ok nonempty fine

theorem reads_cons (rest : List Bytes) : reads loads stdin (chunk :: rest) state =
    match read loads stdin chunk state with
    | .ok messages after =>
        match reads loads stdin rest after with
        | .ok others last => .ok (messages :: others) last
        | .error error last => .error error last
    | .error error after => .error error after := by
  rw [reads, List.mapM_cons, Effect.bind_eq]
  cases read loads stdin chunk state with
  | error error after => rfl
  | ok messages after =>
      simp only [Effect.bind_eq]
      rw [← reads]
      cases reads loads stdin rest after <;> rfl

theorem reads_nil : reads loads stdin [] state = .ok [] state := rfl

theorem reads_pair {chunk' : Bytes} {first second : List μ} {after : ExaBGP}
    (returns : reads loads stdin [chunk, chunk'] state = .ok [first, second] after) :
    ∃ between, read loads stdin chunk state = .ok first between ∧ read loads stdin chunk' between = .ok second after := by
  rw [reads_cons] at returns
  cases one : read loads stdin chunk state with
  | error error between => simp [one] at returns
  | ok messages between =>
      simp only [one, reads_cons, reads_nil] at returns
      cases two : read loads stdin chunk' between with
      | error error last => simp [two] at returns
      | ok others last =>
          simp only [two, EStateM.Result.ok.injEq, List.cons.injEq, and_true] at returns
          obtain ⟨⟨rfl, rfl⟩, rfl⟩ := returns
          exact ⟨between, rfl, two⟩

end Read

section Safety

/-- What each read of a run needs of the state before it. -/
def Readable (loads : Text → Except JsonError μ) (stdin : Stdin) : Bytes → List Bytes → Prop
  | _, [] => True
  | ibuf, chunk :: rest =>
      (stdin = .bufferedReader ∧ ibuf ++ chunk ≠ [] ∧ ∀ line ∈ (ibuf ++ chunk).splitOn newline, Digestible loads line) ∧
      Readable loads stdin (leftover loads ((ibuf ++ chunk).splitOn newline)) rest

variable {stdin : Stdin}

theorem reads_return_iff (rejects : loads [] = .error .decodeError) (chunks : List Bytes) (state : ExaBGP) :
    (∃ messages after, reads loads stdin chunks state = .ok messages after) ↔ Readable loads stdin state.ibuf chunks := by
  induction chunks generalizing state with
  | nil => exact iff_of_true ⟨[], state, rfl⟩ trivial
  | cons chunk rest ih =>
      constructor
      · rintro ⟨messages, after, returns⟩
        rw [reads_cons] at returns
        cases one : read loads stdin chunk state with
        | error error between => simp [one] at returns
        | ok first between =>
            obtain ⟨buffered, nonempty, fine, _, rfl⟩ := (read_ok_iff rejects).mp one
            simp only [one] at returns
            cases others : reads loads stdin rest ⟨leftover loads ((state.ibuf ++ chunk).splitOn newline)⟩ with
            | error error last => simp [others] at returns
            | ok later last => exact ⟨⟨buffered, nonempty, fine⟩, (ih _).mp ⟨later, last, others⟩⟩
      · rintro ⟨⟨rfl, nonempty, fine⟩, later⟩
        obtain ⟨others, last, returns⟩ := (ih ⟨leftover loads ((state.ibuf ++ chunk).splitOn newline)⟩).mpr later
        refine ⟨((state.ibuf ++ chunk).splitOn newline).filterMap (message loads) :: others, last, ?_⟩
        rw [reads_cons, read_ok nonempty fine]
        simp only [returns]

/-- A cut line is read as if it were whole: it stays in the buffer, or its halves add what it would have added. -/
theorem cut_line_iff (rejects : loads [] = .error .decodeError) {state after : ExaBGP} {chunk chunk' front back : Bytes}
    {earlier later : List Bytes} {first second : List μ}
    (returns : reads loads stdin [chunk, chunk'] state = .ok [first, second] after)
    (ends : (state.ibuf ++ chunk).splitOn newline = earlier ++ [front]) (starts : chunk'.splitOn newline = back :: later) :
    first ++ second = (earlier ++ (front ++ back) :: later).filterMap (message loads) ↔
      kept loads front = true ∨ [front, back].filterMap (message loads) = [front ++ back].filterMap (message loads) := by
  obtain ⟨between, one, two⟩ := reads_pair returns
  obtain ⟨_, _, _, rfl, rfl⟩ := (read_ok_iff rejects).mp one
  obtain ⟨_, _, _, rfl, rfl⟩ := (read_ok_iff rejects).mp two
  rw [ends, leftover_concat]
  have unbroken : newline ∉ front := not_mem_of_mem_splitOn (ends ▸ List.mem_append_right earlier List.mem_cons_self)
  simp only [List.filterMap_append, messages_cons, List.filterMap_nil, List.append_nil, List.append_assoc,
    List.append_cancel_left_eq]
  by_cases stays : kept loads front = true
  · rw [if_pos stays, splitOn_append_of_not_mem unbroken starts, messages_cons, message_kept stays]
    exact iff_of_true rfl (.inl stays)
  · rw [if_neg stays, List.nil_append, starts, messages_cons, ← List.append_assoc, List.append_cancel_right_eq]
    exact (or_iff_right stays).symm

/-- All reads return exactly if each finds a buffered reader, some data and lines that `json.loads` takes or
rejects; and a line that is cut in two is decoded exactly if its front is kept or the halves make up for it. -/
theorem reads_safe_iff (rejects : loads [] = .error .decodeError) (stdin : Stdin) (chunks : List Bytes) :
    ((∃ messages after, reads loads stdin chunks .init = .ok messages after) ↔ Readable loads stdin [] chunks) ∧
    ∀ state chunk chunk' first second after, reads loads stdin [chunk, chunk'] state = .ok [first, second] after →
      ∀ earlier front back later, (state.ibuf ++ chunk).splitOn newline = earlier ++ [front] →
        chunk'.splitOn newline = back :: later →
        (first ++ second = (earlier ++ (front ++ back) :: later).filterMap (message loads) ↔
          kept loads front = true ∨ [front, back].filterMap (message loads) = [front ++ back].filterMap (message loads)) :=
  ⟨reads_return_iff rejects chunks .init, fun _ _ _ _ _ _ returns _ _ _ _ => cut_line_iff rejects returns⟩

end Safety

section Example

/-- A `json.loads` for an empty object only. -/
def loadsEmpty (text : Text) : Except JsonError Unit :=
  if text = "{}".toList then .ok ⟨⟩ else .error .decodeError

/-- The text wrapper has no `read1`, a closed pipe delivers nothing, and a character may be cut. -/
theorem read_raises :
    read loadsEmpty .textIOWrapper [123, 125, 10] .init = .error .attributeError .init ∧
    read loadsEmpty .bufferedReader [] .init = .error .indexError .init ∧
    read loadsEmpty .bufferedReader [0xc3] .init = .error (.valueError "UnicodeDecodeError".toList) .init :=
  ⟨rfl, read_nothing rfl rfl, read_undecodable (by decide +kernel) (by decide)⟩

theorem reads_safe_iff_example :
    ((∃ messages after, reads loadsEmpty .bufferedReader [[123], [125, 10]] .init = .ok messages after) ↔
      Readable loadsEmpty .bufferedReader [] [[123], [125, 10]]) ∧
    ∀ state chunk chunk' first second after,
      reads loadsEmpty .bufferedReader [chunk, chunk'] state = .ok [first, second] after →
      ∀ earlier front back later, (state.ibuf ++ chunk).splitOn newline = earlier ++ [front] →
        chunk'.splitOn newline = back :: later →
        (first ++ second = (earlier ++ (front ++ back) :: later).filterMap (message loadsEmpty) ↔
          kept loadsEmpty front = true ∨
            [front, back].filterMap (message loadsEmpty) = [front ++ back].filterMap (message loadsEmpty)) :=
  reads_safe_iff rfl .bufferedReader [[123], [125, 10]]

end Example

end ExaBGP

end ActiveBgp.Exabgp

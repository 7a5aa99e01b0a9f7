import ActiveBgp.Python.Effect

namespace ActiveBgp.Bird

open ActiveBgp.Python

inductive Failure where
  | raised (error : PyError)
  | assertion (message : Text)
  /-- A loop was cut off; the program itself has no limit. -/
  | outOfFuel
deriving DecidableEq, Repr

/-- `fd` is what the file still has, line by line; its `readline` returns the empty text at the end. -/
structure CachingBufferedLineReader where
  fd : List Text
  line : Option Text
  read : Bool
deriving DecidableEq, Repr

abbrev Reading (α : Type) := StateT CachingBufferedLineReader (Except Failure) α

namespace CachingBufferedLineReader

def init (fd : List Text) : CachingBufferedLineReader := ⟨fd, none, true⟩

def readline : Reading Text := fun reader =>
  if reader.read then
    .ok (reader.fd.headD [], { reader with fd := reader.fd.tail, line := some (reader.fd.headD []) })
  else match reader.line with
    | some line => .ok (line, { reader with read := true })
    | none => .error (.assertion [])

def rewindLine : Reading Unit := fun reader => .ok ((), { reader with read := false })

/-- The lines that are still to be read, with the one that was taken back. -/
def Pending (reader : CachingBufferedLineReader) (lines : List Text) : Prop :=
  [] ∉ lines ∧ (reader.read = true ∧ reader.fd = lines ∨
    reader.read = false ∧ reader.line = some (lines.headD []) ∧ reader.fd = lines.tail)

/-- The first of the lines, if there is one, has just been read. -/
def Holding (reader : CachingBufferedLineReader) (lines : List Text) : Prop :=
  [] ∉ lines ∧ reader.read = true ∧ reader.line = some (lines.headD []) ∧ reader.fd = lines.tail

variable {reader : CachingBufferedLineReader} {lines : List Text}

theorem pending_init (nonempty : [] ∉ lines) : (init lines).Pending lines := ⟨nonempty, .inl ⟨rfl, rfl⟩⟩

theorem Pending.readline (pending : reader.Pending lines) :
    ∃ after, readline reader = .ok (lines.headD [], after) ∧ after.Holding lines := by
  obtain ⟨nonempty, ⟨fresh, rfl⟩ | ⟨rewound, line, rest⟩⟩ := pending
  · refine ⟨{ reader with fd := reader.fd.tail, line := some (reader.fd.headD []) }, ?_, nonempty, fresh, rfl, rfl⟩
    rw [CachingBufferedLineReader.readline, if_pos fresh]
  · refine ⟨{ reader with read := true }, ?_, nonempty, rfl, line, rest⟩
    rw [CachingBufferedLineReader.readline, if_neg (by simp [rewound]), line]

theorem Holding.rewind (holding : reader.Holding lines) : Pending { reader with read := false } lines :=
  ⟨holding.1, .inr ⟨rfl, holding.2.2⟩⟩

theorem Holding.pending (holding : reader.Holding lines) : reader.Pending lines.tail :=
  ⟨fun member => holding.1 (List.mem_of_mem_tail member), .inl ⟨holding.2.1, holding.2.2.2⟩⟩

theorem Pending.fd_nil (pending : reader.Pending []) : reader.fd = [] := by
  obtain ⟨_, ⟨_, same⟩ | ⟨_, _, same⟩⟩ := pending
  · exact same
  · exact same

end CachingBufferedLineReader

section Reading

variable {α β : Type} {reader : CachingBufferedLineReader}

theorem bind_ok_iff {first : Reading α} {next : α → Reading β} {result : β × CachingBufferedLineReader} :
    (first >>= next) reader = .ok result ↔
      ∃ value middle, first reader = .ok (value, middle) ∧ next value middle = .ok result := by
  change (first reader >>= fun step => next step.1 step.2) = _ ↔ _
  cases first reader with
  | error failure => simp [bind, Except.bind]
  | ok step =>
      obtain ⟨value, middle⟩ := step
      simp [bind, Except.bind]

theorem bind_of_ok {first : Reading α} {value : α} {middle : CachingBufferedLineReader}
    (done : first reader = .ok (value, middle)) (next : α → Reading β) : (first >>= next) reader = next value middle := by
  change (first reader >>= fun step => next step.1 step.2) = _
  rw [done]
  rfl

@[simp] theorem pure_reading (value : α) : (pure value : Reading α) reader = .ok (value, reader) := rfl

@[simp] theorem throw_reading (failure : Failure) : (throw failure : Reading α) reader = .error failure := rfl

@[simp] theorem rewindLine_reading :
    CachingBufferedLineReader.rewindLine reader = .ok ((), { reader with read := false }) := rfl

end Reading

end ActiveBgp.Bird

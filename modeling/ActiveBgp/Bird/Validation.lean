import ActiveBgp.Bird.AsPath

namespace ActiveBgp.Bird.Path

open ActiveBgp.Data.BigEndian

def asPathConfedSequence : UInt8 := 3

def asPathConfedSet : UInt8 := 4

section Validation

variable {bs : Nat}

def pathSegmentContains (asns : List (Asn bs)) (asn : Nat) : Bool := asns.any fun asn2 => asn2.val = asn

/-- What the loop does with a block: the length so far, and what is kept of the path. -/
def validateSegment (asPath : Bool) (remoteAs : Nat) (kind : UInt8) (asns : List (Asn bs)) :
    Nat × Bytes → Except (Exit Unit) (Nat × Bytes)
  | (res, dst) =>
      if asns.length = 0 then .ok (res, dst)
      else if kind = asPathSet then .ok (res + 1, dst ++ blockBytes kind asns)
      else if kind = asPathSequence then .ok (res + asns.length, dst ++ blockBytes kind asns)
      else if kind = asPathConfedSequence ∨ kind = asPathConfedSet then
        if asPath ∧ pathSegmentContains asns remoteAs then .error (.returned ()) else .ok (res, dst)
      else .error (.returned ())

/-- The length of the path and the path as it stays in its buffer; nothing stands for -1.  A block that is cut
short is noticed before it is read. -/
def validatePath (asPath : Bool) (bs remoteAs : Nat) (idata : Bytes) : Option (Nat × Bytes) :=
  (overBlocks bs (validateSegment asPath remoteAs) idata (0, [])).toOption

end Validation

section Blocks

variable {bs : Nat} {ρ σ : Type} {body : UInt8 → List (Asn bs) → σ → Except (Exit ρ) σ}

/-- A block of any type. -/
structure Block (bs : Nat) where
  kind : UInt8
  asns : List (Asn bs)
  short : asns.length < 256

def Block.bytes (block : Block bs) : Bytes := blockBytes block.kind block.asns

theorem overBlocks_blocks (blocks : List (Block bs)) (state : σ) :
    overBlocks bs body (blocks.flatMap Block.bytes) state =
      blocks.foldlM (fun state block => body block.kind block.asns state) state := by
  induction blocks generalizing state with
  | nil => rw [List.flatMap_nil, overBlocks, List.foldlM_nil]; rfl
  | cons block rest ih =>
      rw [List.flatMap_cons, Block.bytes, overBlocks_block _ block.short, List.foldlM_cons]
      cases body block.kind block.asns state with
      | ok next => exact ih next
      | error exit => rfl

theorem blocks_of_overBlocks {path : Bytes} {state last : σ} (done : overBlocks bs body path state = .ok last) :
    ∃ blocks : List (Block bs), path = blocks.flatMap Block.bytes := by
  induction path, state using overBlocks.induct bs body with
  | case1 => exact ⟨[], rfl⟩
  | case2 state byte => rw [overBlocks] at done; cases done
  | case3 state kind count rest truncated => rw [overBlocks, if_pos truncated] at done; cases done
  | case4 state kind count rest enough next result ih =>
      rw [overBlocks, if_neg enough, result] at done
      obtain ⟨blocks, split⟩ := ih done
      have size : (numbers bs count.toNat rest).length = count.toNat := length_numbers bs count.toNat rest
      have whole : blockBytes kind (numbers bs count.toNat rest) ++ rest.drop (bs * count.toNat) = kind :: count :: rest := by
        rw [blockBytes, size, table_numbers (Nat.not_lt.mp enough), UInt8.ofNat_toNat, List.cons_append, List.cons_append,
          List.take_append_drop]
      refine ⟨⟨kind, numbers bs count.toNat rest, size.trans_lt count.toNat_lt⟩ :: blocks, ?_⟩
      rw [List.flatMap_cons, ← split]
      exact whole.symm
  | case5 state kind count rest enough exit result => rw [overBlocks, if_neg enough, result] at done; cases done

end Blocks

section Acceptance

variable {bs : Nat} {asPath : Bool} {remoteAs : Nat}

/-- The blocks that do not make a path malformed. -/
def Block.Tolerated (asPath : Bool) (remoteAs : Nat) (block : Block bs) : Prop :=
  block.asns = [] ∨ block.kind = asPathSet ∨ block.kind = asPathSequence ∨
    (block.kind = asPathConfedSequence ∨ block.kind = asPathConfedSet) ∧
      ¬ (asPath = true ∧ pathSegmentContains block.asns remoteAs = true)

/-- The segment that stays of a block. -/
def Block.segment? (block : Block bs) : Option (Segment bs) :=
  if nonempty : block.asns ≠ [] then
    if block.kind = asPathSet then some ⟨true, block.asns, nonempty, block.short⟩
    else if block.kind = asPathSequence then some ⟨false, block.asns, nonempty, block.short⟩
    else none
  else none

/-- A block is kept as a segment, taken out, or makes the path malformed. -/
theorem validateSegment_eq (block : Block bs) (res : Nat) (dst : Bytes) :
    (block.Tolerated asPath remoteAs ∧ validateSegment asPath remoteAs block.kind block.asns (res, dst) =
      .ok (res + (items block.segment?.toList).length, dst ++ encode block.segment?.toList)) ∨
    (¬ block.Tolerated asPath remoteAs ∧ ∃ exit,
      validateSegment asPath remoteAs block.kind block.asns (res, dst) = .error exit) := by
  unfold validateSegment Block.Tolerated Block.segment?
  by_cases empty : block.asns = []
  · simp [empty]
  · have some_asns : block.asns.length ≠ 0 := by simpa using empty
    simp only [if_neg some_asns, dif_pos empty, empty, false_or]
    by_cases set : block.kind = asPathSet
    · refine .inl ⟨.inl set, ?_⟩
      simp [set, Segment.items, encode, Segment.bytes, Segment.kind]
    · by_cases sequence : block.kind = asPathSequence
      · refine .inl ⟨.inr (.inl sequence), ?_⟩
        simp [sequence, sequence_ne_set, Segment.items, encode, Segment.bytes, Segment.kind]
      · simp only [set, sequence, if_false, false_or]
        by_cases confed : block.kind = asPathConfedSequence ∨ block.kind = asPathConfedSet
        · by_cases own : asPath = true ∧ pathSegmentContains block.asns remoteAs = true
          · exact .inr ⟨fun tolerated => tolerated.2 own, _, by rw [if_pos confed, if_pos own]⟩
          · refine .inl ⟨⟨confed, own⟩, ?_⟩
            rw [if_pos confed, if_neg own]
            simp
        · exact .inr ⟨fun tolerated => confed tolerated.1, _, if_neg confed⟩

theorem validateSegments_eq (blocks : List (Block bs)) (res : Nat) (dst : Bytes) (last : Nat × Bytes) :
    blocks.foldlM (fun state block => validateSegment asPath remoteAs block.kind block.asns state) (res, dst) = .ok last ↔
      (∀ block ∈ blocks, block.Tolerated asPath remoteAs) ∧
        last = (res + (items (blocks.filterMap Block.segment?)).length, dst ++ encode (blocks.filterMap Block.segment?)) := by
  induction blocks generalizing res dst with
  | nil => simp [pure, Except.pure, eq_comm]
  | cons block rest ih =>
      have kept : (block :: rest).filterMap Block.segment? = block.segment?.toList ++ rest.filterMap Block.segment? := by
        rw [List.filterMap_cons]
        cases block.segment? <;> rfl
      rw [List.foldlM_cons, List.forall_mem_cons, kept, items_append, encode_append, List.length_append, ← Nat.add_assoc,
        ← List.append_assoc]
      rcases @validateSegment_eq _ asPath remoteAs block res dst with ⟨tolerated, next⟩ | ⟨wrong, exit, ended⟩
      · rw [next, and_iff_right tolerated]
        exact ih _ _
      · rw [ended]
        exact ⟨nofun, fun both => absurd both.1.1 wrong⟩

theorem validatePath_blocks (blocks : List (Block bs)) (res : Nat) (odata : Bytes) :
    validatePath asPath bs remoteAs (blocks.flatMap Block.bytes) = some (res, odata) ↔
      (∀ block ∈ blocks, block.Tolerated asPath remoteAs) ∧
        res = (items (blocks.filterMap Block.segment?)).length ∧ odata = encode (blocks.filterMap Block.segment?) := by
  have loop := @validateSegments_eq _ asPath remoteAs blocks 0 [] (res, odata)
  rw [Nat.zero_add, List.nil_append, Prod.mk.injEq] at loop
  rw [validatePath, overBlocks_blocks, ← loop]
  cases blocks.foldlM (fun state block => validateSegment asPath remoteAs block.kind block.asns state) (0, []) <;>
    simp [Except.toOption]

theorem blocks_of_validatePath {idata odata : Bytes} {res : Nat}
    (accepted : validatePath asPath bs remoteAs idata = some (res, odata)) :
    ∃ blocks : List (Block bs), idata = blocks.flatMap Block.bytes := by
  rw [validatePath] at accepted
  cases done : overBlocks bs (validateSegment asPath remoteAs) idata (0, []) with
  | error exit => rw [done] at accepted; cases accepted
  | ok last => exact blocks_of_overBlocks done

def Segment.block (segment : Segment bs) : Block bs := ⟨segment.kind, segment.asns, segment.short⟩

theorem Segment.segment?_block (segment : Segment bs) : segment.block.segment? = some segment := by
  obtain ⟨isSet, asns, nonempty, short⟩ := segment
  unfold block Block.segment?
  rw [dif_pos nonempty]
  cases isSet <;> rfl

theorem validatePath_encode (path : AsPath bs) :
    validatePath asPath bs remoteAs (encode path) = some ((items path).length, encode path) := by
  have blocks : encode path = (path.map Segment.block).flatMap Block.bytes := by
    rw [List.flatMap_map]
    rfl
  have kept : (path.map Segment.block).filterMap Block.segment? = path := by
    have each : Block.segment? ∘ Segment.block = @some (Segment bs) := funext Segment.segment?_block
    rw [List.filterMap_map, each, List.filterMap_some]
  have tolerated : ∀ block ∈ path.map Segment.block, block.Tolerated asPath remoteAs := by
    refine List.forall_mem_map.mpr fun segment _ => .inr ?_
    rcases segment.cases_kind with ⟨set, _⟩ | ⟨sequence, _⟩
    · exact .inl set
    · exact .inr (.inl sequence)
  rw [blocks, validatePath_blocks, kept]
  exact ⟨tolerated, rfl, blocks.symm⟩

/-- Accepted buffers are blocks that can be tolerated; the segments among them stay, and are accepted again. -/
theorem validatePath_iff (asPath : Bool) (bs remoteAs : Nat) (idata : Bytes) (res : Nat) (odata : Bytes) :
    validatePath asPath bs remoteAs idata = some (res, odata) ↔
      ∃ blocks : List (Block bs), idata = blocks.flatMap Block.bytes ∧
        (∀ block ∈ blocks, block.Tolerated asPath remoteAs) ∧
        odata = encode (blocks.filterMap Block.segment?) ∧ asPathGetlenInt odata bs = some res ∧
        validatePath asPath bs remoteAs odata = some (res, odata) := by
  constructor
  · intro accepted
    obtain ⟨blocks, rfl⟩ := blocks_of_validatePath accepted
    obtain ⟨tolerated, rfl, rfl⟩ := (validatePath_blocks blocks res odata).mp accepted
    exact ⟨blocks, rfl, tolerated, rfl, asPathGetlenInt_encode _, validatePath_encode _⟩
  · rintro ⟨blocks, rfl, tolerated, rfl, length, _⟩
    rw [asPathGetlenInt_encode, Option.some.injEq] at length
    exact (validatePath_blocks blocks res _).mpr ⟨tolerated, length.symm, rfl⟩

end Acceptance

end ActiveBgp.Bird.Path

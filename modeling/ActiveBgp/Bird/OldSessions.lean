import ActiveBgp.Bird.Validation

namespace ActiveBgp.Bird.Path

open ActiveBgp.Data.BigEndian

/-! # Sessions with two-byte AS numbers

A speaker that knows two-byte numbers only gets a path in which every larger number
is replaced, and the true path as an attribute that it passes on as it is.  The next
BIRD puts both together: what the old speakers have added, and the true path.
-/

def asTrans : Asn 2 := 23456

def asPathMaxlen : Nat := 10000

section Conversions

/-- `put_u16` of a number, or of the replacement of a larger one. -/
def toOld (as : Asn 4) : Asn 2 := if as.val > 65535 then asTrans else Fin.ofNat _ as.val

def toNew (as : Asn 2) : Asn 4 := Fin.castLE (by decide) as

def isNew (as : Asn 4) : Bool := as.val > 65535

/-- The path in two-byte numbers, and whether a number is replaced. -/
def asPathConvertToOld (path : Bytes) : Option (Bytes × Bool) :=
  result id (overBlocks 4 (fun kind asns (state : Bytes × Bool) =>
    .ok (state.1 ++ blockBytes kind (asns.map toOld), state.2 || asns.any isNew)) path ([], false))

/-- The body of the loop of `as_path_convert_to_new`. -/
def convertSegment (kind : UInt8) (asns : List (Asn 2)) (state : Bytes × Nat) : Except (Exit Bytes) (Bytes × Nat) :=
  if state.2 = 0 then .error (.returned state.1)
  else
    let n := if kind = asPathSequence then min asns.length state.2 else asns.length
    .ok (state.1 ++ blockBytes kind ((asns.take n).map toNew), if kind = asPathSequence then state.2 - n else state.2 - 1)

/-- The first `reqAs` items of a path in two-byte numbers. -/
def asPathConvertToNew (path : Bytes) (reqAs : Nat) : Option Bytes :=
  result Prod.fst (overBlocks 2 convertSegment path ([], reqAs))

def bgpMergeAsPaths (old2 : Bytes) (old4 : Option Bytes) (reqAs : Nat) : Option Bytes :=
  (asPathConvertToNew old2 reqAs).map fun buf => buf ++ old4.getD []

/-- The number and the address of an aggregator. -/
def aggregatorConvertToOld (aggr : Bytes) : Bytes × Bool :=
  (digits 2 (toOld (number 4 aggr)).val ++ (aggr.drop 4).take 4, isNew (number 4 aggr))

def aggregatorConvertToNew (aggr : Bytes) : Bytes := digits 4 (toNew (number 2 aggr)).val ++ (aggr.drop 2).take 4

end Conversions

section Attributes

/-- The attributes of a route that depend on the width of AS numbers. -/
structure Attributes where
  asPath : Bytes
  aggregator : Option Bytes

/-- The same attributes in an update message. -/
structure Update where
  asPath : Bytes
  as4Path : Option Bytes
  aggregator : Option Bytes
  as4Aggregator : Option Bytes

/-- What `bgp_encode_attrs` writes for these attributes. -/
def encodedAttrs (as4Session : Bool) (attrs : Attributes) : Option Update :=
  if as4Session then some ⟨attrs.asPath, none, attrs.aggregator, none⟩
  else
    (asPathConvertToOld attrs.asPath).map fun (path, newUsed) =>
      let old := attrs.aggregator.map aggregatorConvertToOld
      { asPath := path
        as4Path := if newUsed then some attrs.asPath else none
        aggregator := old.map Prod.fst
        as4Aggregator := if old.any Prod.snd then attrs.aggregator else none }

/-- The buffer for the attributes: what remains of it when the loop gets to the path, and what the attributes
between the path and the aggregator and those behind the aggregator leave of it. -/
structure Buffer where
  remains : Nat
  between : Nat → Option Nat
  after : Nat → Option Nat

/-- The length of the header. -/
def bgpEncodeAttrHdr (len : Nat) : Nat := if len < 256 then 3 else 4

/-- `remains` after an attribute, or `err_no_buffer`. -/
def encodeAttr (needed len remains : Nat) : Option Nat :=
  if remains < needed then none else some (remains - (bgpEncodeAttrHdr len + len))

/-- `remains` at the end of the loop, or `err_no_buffer`. -/
def Buffer.encode (buffer : Buffer) (as4Session : Bool) (attrs : Attributes) (update : Update) : Option Nat := do
  let len := attrs.asPath.length
  let remains ← encodeAttr (len + 4) update.asPath.length buffer.remains
  let remains ← if update.as4Path.isSome then encodeAttr (len + 4) len remains else some remains
  let remains ← buffer.between remains
  let remains ←
    match attrs.aggregator with
    | none => some remains
    | some aggr =>
        if as4Session then encodeAttr (aggr.length + 4) aggr.length remains
        else do
          let remains ← encodeAttr (6 + 3) 6 remains
          if update.as4Aggregator.isSome then encodeAttr (8 + 3) 8 remains else some remains
  buffer.after remains

/-- The part of `bgp_encode_attrs` for these attributes; nothing stands for a route that is skipped. -/
def bgpEncodeAttrs (as4Session : Bool) (buffer : Buffer) (attrs : Attributes) : Option Update := do
  let update ← encodedAttrs as4Session attrs
  let _ ← buffer.encode as4Session attrs update
  return update

/-- The true path is used if it is no longer than the other one; nothing stands for a malformed one. -/
def bgpReconstructPath (remoteAs : Nat) (p2 : Bytes) (p4 : Option Bytes) : Option Bytes := do
  let p2Len ← asPathGetlenInt p2 2
  match p4.bind (validatePath false 4 remoteAs) with
  | some (p4Len, p4) =>
      if p4Len = 0 ∨ p2Len < p4Len then bgpMergeAsPaths p2 none asPathMaxlen
      else bgpMergeAsPaths p2 (some p4) (p2Len - p4Len)
  | none => bgpMergeAsPaths p2 none asPathMaxlen

/-- An aggregator with a number of its own was put in by an old speaker, and the new attributes are out of date. -/
def bgpReconstruct4bAtts (remoteAs : Nat) (update : Update) : Option Attributes :=
  let path := bgpReconstructPath remoteAs update.asPath update.as4Path
  match update.aggregator, update.as4Aggregator.filter (·.length = 8) with
  | some a2, some a4 =>
      if number 2 a2 ≠ asTrans then
        (bgpMergeAsPaths update.asPath none asPathMaxlen).map fun path => ⟨path, some (aggregatorConvertToNew a2)⟩
      else path.map fun path => ⟨path, some a4⟩
  | some a2, none => path.map fun path => ⟨path, some (aggregatorConvertToNew a2)⟩
  | none, _ => path.map fun path => ⟨path, none⟩

/-- The settings of a session that matter here. -/
structure Session where
  as4Session : Bool
  remoteAs : Nat
  localAs : Asn 4
  allowLocalAs : Int

def bgpAsPathLoopy (session : Session) (path : Bytes) : Option Bool :=
  let num := session.allowLocalAs + 1
  if num > 0 then asPathContains path session.localAs num.toNat else some false

/-- The part of `bgp_decode_attrs` for these attributes; nothing stands for a route that is not taken. -/
def bgpDecodeAttrs (session : Session) (update : Update) : Option Attributes := do
  let (_, path) ← validatePath true (if session.as4Session then 4 else 2) session.remoteAs update.asPath
  if update.aggregator.any fun aggr => aggr.length ≠ if session.as4Session then 8 else 6 then none
  else
    let attrs ←
      if session.as4Session then some ⟨path, update.aggregator⟩
      else bgpReconstruct4bAtts session.remoteAs { update with asPath := path }
    if ← bgpAsPathLoopy session attrs.asPath then none else some attrs

end Attributes

section ConvertedPaths

variable {bs width : Nat}

def Segment.map (f : Asn bs → Asn width) (segment : Segment bs) : Segment width :=
  ⟨segment.isSet, segment.asns.map f, by simpa using segment.nonempty, by simpa using segment.short⟩

def Item.map (f : Asn bs → Asn width) : Item bs → Item width
  | .asn as => .asn (f as)
  | .set asns => .set (asns.map f)

theorem Segment.items_map (f : Asn bs → Asn width) (segment : Segment bs) :
    (segment.map f).items = segment.items.map (Item.map f) := by
  cases isSet : segment.isSet <;> simp [Segment.items, Segment.map, isSet, Item.map]

theorem items_map (f : Asn bs → Asn width) (path : AsPath bs) :
    items (path.map (Segment.map f)) = (items path).map (Item.map f) := by
  induction path with
  | nil => rfl
  | cons segment rest ih => rw [List.map_cons, items_cons, items_cons, List.map_append, segment.items_map, ih]

theorem asPathConvertToOld_encode (path : AsPath 4) :
    asPathConvertToOld (encode path) =
      some (encode (path.map (Segment.map toOld)), ((items path).flatMap Item.asns).any isNew) := by
  have loop (path : AsPath 4) (dst : Bytes) (used : Bool) :
      path.foldlM (fun (state : Bytes × Bool) (segment : Segment 4) =>
        (.ok (state.1 ++ blockBytes segment.kind (segment.asns.map toOld), state.2 || segment.asns.any isNew) :
          Except (Exit (Bytes × Bool)) (Bytes × Bool))) (dst, used) =
        .ok (dst ++ encode (path.map (Segment.map toOld)), used || ((items path).flatMap Item.asns).any isNew) := by
    induction path generalizing dst used with
    | nil => simp; rfl
    | cons segment rest ih =>
        have asns : segment.items.flatMap Item.asns = segment.asns := by
          rcases segment.cases_kind with ⟨_, alone⟩ | ⟨_, each⟩
          · rw [alone, List.flatMap_singleton]
            rfl
          · rw [each, List.flatMap_map]
            exact List.flatMap_singleton' segment.asns
        rw [List.foldlM_cons, List.map_cons, encode_cons, items_cons, List.flatMap_append, asns, List.any_append,
          ← Bool.or_assoc, ← List.append_assoc]
        exact ih _ _
  rw [asPathConvertToOld, overBlocks_encode, loop, List.nil_append, Bool.false_or]
  rfl

/-- A limit cuts a sequence, but no set. -/
def Segment.first (segment : Segment bs) (more : Nat) : Segment bs where
  isSet := segment.isSet
  asns := if segment.isSet then segment.asns else segment.asns.take (more + 1)
  nonempty := by
    have nonempty := segment.nonempty
    split <;> simpa using nonempty
  short := by
    have short := segment.short
    split
    · exact short
    · exact (List.length_take_le' _ _).trans_lt short

theorem Segment.items_first (segment : Segment bs) (more : Nat) :
    (segment.first more).items = segment.items.take (more + 1) := by
  cases isSet : segment.isSet <;> simp [Segment.items, Segment.first, isSet]

theorem convertSegment_eq (segment : Segment 2) (dst : Bytes) (more : Nat) :
    convertSegment segment.kind segment.asns (dst, more + 1) =
      .ok (dst ++ ((segment.first more).map toNew).bytes, more + 1 - segment.items.length) := by
  unfold convertSegment
  rw [if_neg (Nat.succ_ne_zero more)]
  cases isSet : segment.isSet with
  | true => simp [Segment.kind, Segment.items, Segment.first, Segment.map, Segment.bytes, isSet, sequence_ne_set.symm]
  | false =>
      have least : segment.asns.take (min segment.asns.length (more + 1)) = segment.asns.take (more + 1) := by
        rw [Nat.min_comm, ← List.take_eq_take_min]
      have rest : more + 1 - min segment.asns.length (more + 1) = more + 1 - segment.asns.length := by omega
      simp [Segment.kind, Segment.items, Segment.first, Segment.map, Segment.bytes, isSet, least, rest]

theorem asPathConvertToNew_encode (path : AsPath 2) (reqAs : Nat) :
    ∃ after : AsPath 4, asPathConvertToNew (encode path) reqAs = some (encode after) ∧
      items after = ((items path).take reqAs).map (Item.map toNew) := by
  have loop (path : AsPath 2) (dst : Bytes) (reqAs : Nat) : ∃ after : AsPath 4,
      result Prod.fst (path.foldlM (fun state segment => convertSegment segment.kind segment.asns state) (dst, reqAs)) =
          some (dst ++ encode after) ∧
        items after = ((items path).take reqAs).map (Item.map toNew) := by
    induction path generalizing dst reqAs with
    | nil => exact ⟨[], by simp [result, pure, Except.pure], by simp⟩
    | cons segment rest ih =>
        rw [List.foldlM_cons]
        cases reqAs with
        | zero => exact ⟨[], by rw [encode_nil, List.append_nil]; rfl, rfl⟩
        | succ more =>
            obtain ⟨after, converted, listed⟩ :=
              ih (dst ++ ((segment.first more).map toNew).bytes) (more + 1 - segment.items.length)
            refine ⟨(segment.first more).map toNew :: after, ?_, ?_⟩
            · rw [convertSegment_eq, encode_cons, ← List.append_assoc]
              exact converted
            · rw [items_cons, items_cons, Segment.items_map, Segment.items_first, listed, List.take_append, List.map_append]
  obtain ⟨after, converted, listed⟩ := loop path [] reqAs
  rw [asPathConvertToNew, overBlocks_encode]
  exact ⟨after, converted, listed⟩

end ConvertedPaths

section Reconstruction

theorem bgpMergeAsPaths_none (p2 : AsPath 2) (reqAs : Nat) :
    ∃ after : AsPath 4, bgpMergeAsPaths (encode p2) none reqAs = some (encode after) ∧
      items after = ((items p2).take reqAs).map (Item.map toNew) := by
  obtain ⟨after, converted, listed⟩ := asPathConvertToNew_encode p2 reqAs
  refine ⟨after, ?_, listed⟩
  rw [bgpMergeAsPaths, converted, Option.map_some, Option.getD_none, List.append_nil]

theorem bgpMergeAsPaths_some (p2 : AsPath 2) (p4 : AsPath 4) (reqAs : Nat) :
    ∃ after : AsPath 4, bgpMergeAsPaths (encode p2) (some (encode p4)) reqAs = some (encode after) ∧
      items after = ((items p2).take reqAs).map (Item.map toNew) ++ items p4 := by
  obtain ⟨front, converted, listed⟩ := asPathConvertToNew_encode p2 reqAs
  refine ⟨front ++ p4, ?_, by rw [items_append, listed]⟩
  rw [bgpMergeAsPaths, converted, Option.map_some, Option.getD_some, encode_append]

/-- The items in front of a path that is the end of the other one. -/
theorem bgpReconstructPath_suffix (remoteAs : Nat) (p2 : AsPath 2) (p4 : AsPath 4) (nonempty : items p4 ≠ [])
    (shorter : (items p4).length ≤ (items p2).length) :
    ∃ after : AsPath 4, bgpReconstructPath remoteAs (encode p2) (some (encode p4)) = some (encode after) ∧
      items after = ((items p2).take ((items p2).length - (items p4).length)).map (Item.map toNew) ++ items p4 := by
  have some_items : (items p4).length ≠ 0 := by simpa using nonempty
  have usable : ¬ ((items p4).length = 0 ∨ (items p2).length < (items p4).length) := by omega
  obtain ⟨after, merged, listed⟩ := bgpMergeAsPaths_some p2 p4 ((items p2).length - (items p4).length)
  refine ⟨after, ?_, listed⟩
  simp only [bgpReconstructPath, asPathGetlenInt_encode, Option.bind_eq_bind, Option.bind_some, validatePath_encode,
    if_neg usable]
  exact merged

theorem bgpReconstructPath_none (remoteAs : Nat) (p2 : AsPath 2) :
    ∃ after : AsPath 4, bgpReconstructPath remoteAs (encode p2) none = some (encode after) ∧
      items after = ((items p2).take asPathMaxlen).map (Item.map toNew) := by
  obtain ⟨after, merged, listed⟩ := bgpMergeAsPaths_none p2 asPathMaxlen
  refine ⟨after, ?_, listed⟩
  simp only [bgpReconstructPath, asPathGetlenInt_encode]
  exact merged

theorem toNew_toOld {as : Asn 4} (small : isNew as = false) : toNew (toOld as) = as := by
  have bound : as.val ≤ 65535 := by simpa [isNew] using small
  rw [toOld, if_neg (Nat.not_lt.mpr bound)]
  apply Fin.ext
  exact Nat.mod_eq_of_lt (by omega)

theorem items_toNew_toOld {list : List (Item 4)} (small : (list.flatMap Item.asns).any isNew = false) :
    (list.map (Item.map toOld)).map (Item.map toNew) = list := by
  rw [List.map_map]
  refine (List.map_congr_left fun item member => ?_).trans (List.map_id list)
  have each (as : Asn 4) (inside : as ∈ item.asns) : toNew (toOld as) = as := by
    refine toNew_toOld ?_
    have none := List.any_eq_false.mp small as (List.mem_flatMap.mpr ⟨item, member, inside⟩)
    simpa using none
  cases item with
  | asn as => exact congrArg Item.asn (each as (List.mem_singleton_self as))
  | set asns =>
      refine congrArg Item.set ?_
      rw [List.map_map]
      exact (List.map_congr_left each).trans (List.map_id asns)

end Reconstruction

section Aggregators

variable {aggr : Bytes}

theorem number_toOld (aggr : Bytes) : number 2 (aggregatorConvertToOld aggr).1 = toOld (number 4 aggr) :=
  number_digits _ _

theorem length_toOld (whole : aggr.length = 8) : (aggregatorConvertToOld aggr).1.length = 6 := by
  simp [aggregatorConvertToOld, whole]

theorem aggregatorConvertToNew_toOld (whole : aggr.length = 8) (small : isNew (number 4 aggr) = false) :
    aggregatorConvertToNew (aggregatorConvertToOld aggr).1 = aggr := by
  have address : ((aggregatorConvertToOld aggr).1.drop 2).take 4 = aggr.drop 4 := by
    have last : (aggr.drop 4).take 4 = aggr.drop 4 := List.take_of_length_le (by simp [whole])
    rw [aggregatorConvertToOld, List.drop_left' (length_digits 2 _), last, last]
  rw [aggregatorConvertToNew, number_toOld, toNew_toOld small, address, digits_number (by omega), List.take_append_drop]

theorem bgpReconstruct4bAtts_aggregator {remoteAs : Nat} {update : Update} {path : Bytes} {aggregator : Option Bytes}
    (whole : ∀ aggr ∈ aggregator, aggr.length = 8)
    (old : update.aggregator = (aggregator.map aggregatorConvertToOld).map Prod.fst)
    (new : update.as4Aggregator = if (aggregator.map aggregatorConvertToOld).any Prod.snd then aggregator else none)
    (rebuilt : bgpReconstructPath remoteAs update.asPath update.as4Path = some path) :
    bgpReconstruct4bAtts remoteAs update = some ⟨path, aggregator⟩ := by
  unfold bgpReconstruct4bAtts
  rw [old, new, rebuilt]
  cases aggregator with
  | none => rfl
  | some aggr =>
      have size := whole aggr rfl
      cases large : isNew (number 4 aggr) with
      | true =>
          have replaced : number 2 (aggregatorConvertToOld aggr).1 = asTrans := by
            rw [number_toOld, toOld, if_pos (by simpa [isNew] using large)]
          have flag : (aggregatorConvertToOld aggr).2 = true := large
          have kept : (some aggr).filter (fun a4 => decide (a4.length = 8)) = some aggr := by simp [Option.filter, size]
          simp [flag, kept, replaced]
      | false =>
          have flag : (aggregatorConvertToOld aggr).2 = false := large
          simp [flag, aggregatorConvertToNew_toOld size large]

end Aggregators

section Travel

variable {speak : Asn 2 → Bytes → Bytes} {session : Session}

/-- The receiver finds its own number too often. -/
def Session.Loopy (session : Session) (list : List (Item 4)) : Prop :=
  session.allowLocalAs + 1 > 0 ∧ (session.allowLocalAs + 1).toNat ≤ (list.flatMap Item.asns).count session.localAs

instance (session : Session) (list : List (Item 4)) : Decidable (session.Loopy list) :=
  inferInstanceAs (Decidable (_ ∧ _))

theorem bgpAsPathLoopy_encode (session : Session) (path : AsPath 4) :
    bgpAsPathLoopy session (encode path) = some (decide (session.Loopy (items path))) := by
  unfold bgpAsPathLoopy Session.Loopy
  by_cases limited : session.allowLocalAs + 1 > 0
  · simp only [limited, true_and]
    exact asPathContains_encode path session.localAs (by omega)
  · simp [limited]

/-- The old speakers on the way from one BIRD to the next; there are none in a session with four-byte numbers. -/
structure Leg where
  sender : Asn 4
  speakers : List (Asn 2)
  session : Session
  buffer : Buffer
  direct : session.as4Session = true → speakers = []

namespace Leg

/-- A message goes through the old speakers, each of which changes the path. -/
def deliver (speak : Asn 2 → Bytes → Bytes) (leg : Leg) (attrs : Attributes) : Option Attributes := do
  let update ← bgpEncodeAttrs leg.session.as4Session leg.buffer attrs
  bgpDecodeAttrs leg.session { update with asPath := leg.speakers.foldl (fun path as => speak as path) update.asPath }

/-- The attributes fit in the buffer. -/
def Fits (leg : Leg) (attrs : Attributes) : Prop := bgpEncodeAttrs leg.session.as4Session leg.buffer attrs ≠ none

instance (leg : Leg) (attrs : Attributes) : Decidable (leg.Fits attrs) :=
  decidable_of_iff _ Option.isSome_iff_ne_none

theorem encoded_of_fits {leg : Leg} {attrs : Attributes} (fits : leg.Fits attrs) :
    bgpEncodeAttrs leg.session.as4Session leg.buffer attrs = encodedAttrs leg.session.as4Session attrs := by
  obtain ⟨update, encoded⟩ := Option.ne_none_iff_exists'.mp fits
  obtain ⟨written, content, room⟩ := Option.bind_eq_some_iff.mp encoded
  obtain ⟨remains, _, same⟩ := Option.bind_eq_some_iff.mp room
  rw [encoded, content, ← same]
  rfl

theorem deliver_eq_none (speak : Asn 2 → Bytes → Bytes) {leg : Leg} {attrs : Attributes} (skipped : ¬ leg.Fits attrs) :
    leg.deliver speak attrs = none := by
  have encoded : bgpEncodeAttrs leg.session.as4Session leg.buffer attrs = none := not_not.mp skipped
  rw [deliver, encoded]
  rfl

/-- The sender puts its number in front of the path that it has got. -/
def travel (speak : Asn 2 → Bytes → Bytes) (leg : Leg) (attrs : Attributes) : Option Attributes :=
  leg.deliver speak { attrs with asPath := asPathPrepend attrs.asPath leg.sender }

/-- The old speakers, the last one first. -/
def between (leg : Leg) : List (Item 4) := leg.speakers.reverse.map fun as => .asn (toNew as)

/-- Everybody on the way, the last one first. -/
def hops (leg : Leg) : List (Item 4) := leg.between ++ [.asn leg.sender]

end Leg

/-- Old speakers put their numbers in front of a path. -/
def Speaks (speak : Asn 2 → Bytes → Bytes) : Prop :=
  ∀ as (path : AsPath 2), ∃ after : AsPath 2, speak as (encode path) = encode after ∧ items after = .asn as :: items path

theorem Speaks.foldl (speaks : Speaks speak) (speakers : List (Asn 2)) (path : AsPath 2) :
    ∃ after : AsPath 2, speakers.foldl (fun path as => speak as path) (encode path) = encode after ∧
      items after = speakers.reverse.map .asn ++ items path := by
  induction speakers generalizing path with
  | nil => exact ⟨path, rfl, rfl⟩
  | cons as rest ih =>
      obtain ⟨middle, spoken, listed⟩ := speaks as path
      obtain ⟨after, all, listed'⟩ := ih middle
      refine ⟨after, by rw [List.foldl_cons, spoken, all], ?_⟩
      rw [listed', listed, List.reverse_cons, List.map_append, List.append_assoc]
      rfl

variable {aggregator : Option Bytes}

theorem bgpDecodeAttrs_new (new : session.as4Session = true) (whole : ∀ aggr ∈ aggregator, aggr.length = 8)
    (path : AsPath 4) (as4Path as4Aggregator : Option Bytes) :
    bgpDecodeAttrs session ⟨encode path, as4Path, aggregator, as4Aggregator⟩ =
      if session.Loopy (items path) then none else some ⟨encode path, aggregator⟩ := by
  have sized : (aggregator.any fun aggr => !decide (aggr.length = 8)) = false := by
    cases aggregator with
    | none => rfl
    | some aggr => simp [whole aggr rfl]
  simp [bgpDecodeAttrs, new, validatePath_encode, sized, bgpAsPathLoopy_encode]

theorem bgpDecodeAttrs_old (old : session.as4Session = false) {update : Update} {p2 : AsPath 2} {path : AsPath 4}
    (given : update.asPath = encode p2) (sized : ∀ aggr ∈ update.aggregator, aggr.length = 6)
    (rebuilt : bgpReconstruct4bAtts session.remoteAs update = some ⟨encode path, aggregator⟩) :
    bgpDecodeAttrs session update =
      if session.Loopy (items path) then none else some ⟨encode path, aggregator⟩ := by
  obtain ⟨asPath, as4Path, old2, old4⟩ := update
  subst given
  have accepted : (old2.any fun aggr => !decide (aggr.length = 6)) = false := by
    cases old2 with
    | none => rfl
    | some aggr => simp [sized aggr rfl]
  simp [bgpDecodeAttrs, old, validatePath_encode, accepted, rebuilt, bgpAsPathLoopy_encode]

/-- What the old speakers have added is read from the path that they know, the rest from the true path. -/
theorem reconstructed {remoteAs : Nat} {path : AsPath 4} {p2 : AsPath 2} {speakers : List (Asn 2)} (nonempty : items path ≠ [])
    (listed : items p2 = speakers.reverse.map .asn ++ (items path).map (Item.map toOld))
    (few : (items path).length + speakers.length ≤ asPathMaxlen) :
    ∃ after : AsPath 4, bgpReconstructPath remoteAs (encode p2)
        (if ((items path).flatMap Item.asns).any isNew then some (encode path) else none) = some (encode after) ∧
      items after = (speakers.reverse.map fun as => .asn (toNew as)) ++ items path := by
  have added : (speakers.reverse.map (@Item.asn 2)).map (Item.map toNew) =
      speakers.reverse.map fun as => .asn (toNew as) := by
    rw [List.map_map]
    rfl
  have length : (items p2).length = speakers.length + (items path).length := by simp [listed]
  cases large : ((items path).flatMap Item.asns).any isNew with
  | true =>
      obtain ⟨after, rebuilt, shown⟩ := bgpReconstructPath_suffix remoteAs p2 path nonempty (by omega)
      refine ⟨after, rebuilt, ?_⟩
      have front : (items p2).take ((items p2).length - (items path).length) = speakers.reverse.map .asn := by
        rw [length, Nat.add_sub_cancel, listed]
        exact List.take_left' (by simp)
      rw [shown, front, added]
  | false =>
      obtain ⟨after, rebuilt, shown⟩ := bgpReconstructPath_none remoteAs p2
      refine ⟨after, rebuilt, ?_⟩
      rw [shown, List.take_of_length_le (by omega), listed, List.map_append, added, items_toNew_toOld large]

theorem Leg.deliver_eq (speaks : Speaks speak) (leg : Leg) {path : AsPath 4} (nonempty : items path ≠ [])
    (fits : leg.Fits ⟨encode path, aggregator⟩) (whole : ∀ aggr ∈ aggregator, aggr.length = 8) (few : (items path).length + leg.speakers.length ≤ asPathMaxlen) :
    ∃ after : AsPath 4, items after = leg.between ++ items path ∧
      leg.deliver speak ⟨encode path, aggregator⟩ =
        if leg.session.Loopy (leg.between ++ items path) then none else some ⟨encode after, aggregator⟩ := by
  cases kind : leg.session.as4Session with
  | true =>
      have alone : leg.between = [] := by rw [between, leg.direct kind]; rfl
      refine ⟨path, by rw [alone]; rfl, ?_⟩
      have decoded := bgpDecodeAttrs_new kind whole path none none
      rw [deliver, encoded_of_fits fits]
      simp only [encodedAttrs, kind, leg.direct kind, alone]
      exact decoded
  | false =>
      obtain ⟨p2, spoken, listed⟩ := speaks.foldl leg.speakers (path.map (Segment.map toOld))
      rw [items_map] at listed
      obtain ⟨after, rebuilt, shown⟩ := @reconstructed leg.session.remoteAs _ _ _ nonempty listed few
      refine ⟨after, shown, ?_⟩
      have all : leg.between ++ items path = items after := shown.symm
      rw [all]
      rw [deliver, encoded_of_fits fits]
      simp only [encodedAttrs, kind, asPathConvertToOld_encode]
      refine bgpDecodeAttrs_old kind spoken ?_ (bgpReconstruct4bAtts_aggregator whole rfl rfl ?_)
      · intro aggr given
        obtain ⟨old, from_old, rfl⟩ := Option.mem_map.mp given
        obtain ⟨own, present, rfl⟩ := Option.mem_map.mp from_old
        exact length_toOld (whole own present)
      · rw [← rebuilt]
        exact congrArg (fun p2 => bgpReconstructPath leg.session.remoteAs p2 _) spoken

theorem Leg.travel_eq (speaks : Speaks speak) (leg : Leg) (path : AsPath 4)
    (fits : leg.Fits ⟨asPathPrepend (encode path) leg.sender, aggregator⟩) (whole : ∀ aggr ∈ aggregator, aggr.length = 8)
    (few : (items path).length + leg.hops.length ≤ asPathMaxlen) :
    ∃ after : AsPath 4, items after = leg.hops ++ items path ∧
      leg.travel speak ⟨encode path, aggregator⟩ =
        if leg.session.Loopy (leg.hops ++ items path) then none else some ⟨encode after, aggregator⟩ := by
  have sent : items (prepend leg.sender path) = .asn leg.sender :: items path := items_prepend leg.sender path
  have all : leg.between ++ items (prepend leg.sender path) = leg.hops ++ items path := by
    rw [sent, hops, List.append_assoc]
    rfl
  have size : leg.hops.length = leg.speakers.length + 1 := by simp [hops, between]
  have nonempty : items (prepend leg.sender path) ≠ [] := by
    rw [sent]
    exact List.cons_ne_nil _ _
  rw [asPathPrepend_encode] at fits
  obtain ⟨after, listed, delivered⟩ := leg.deliver_eq speaks nonempty fits whole (by rw [sent, List.length_cons]; omega)
  rw [all] at listed delivered
  refine ⟨after, listed, ?_⟩
  rw [travel, asPathPrepend_encode]
  exact delivered

/-- The path that should arrive, unless a receiver finds itself in it. -/
def arrive : List Leg → List (Item 4) → Option (List (Item 4))
  | [], list => some list
  | leg :: rest, list => if leg.session.Loopy (leg.hops ++ list) then none else arrive rest (leg.hops ++ list)

/-- Some sender on the way has no buffer for the attributes. -/
def Skipped (speak : Asn 2 → Bytes → Bytes) (legs : List Leg) (attrs : Attributes) : Prop :=
  ∃ before leg rest middle, legs = before ++ leg :: rest ∧
    before.foldlM (fun attrs leg => leg.travel speak attrs) attrs = some middle ∧
    ¬ leg.Fits { middle with asPath := asPathPrepend middle.asPath leg.sender }

theorem Skipped.cons {leg : Leg} {rest : List Leg} {attrs middle : Attributes} (travelled : leg.travel speak attrs = some middle)
    (skipped : Skipped speak rest middle) : Skipped speak (leg :: rest) attrs := by
  obtain ⟨before, next, later, last, rfl, gone, none⟩ := skipped
  exact ⟨leg :: before, next, later, last, rfl, by rw [List.foldlM_cons, travelled]; exact gone, none⟩

/-- A route goes through sessions of both kinds and through old speakers as if all numbers had four bytes. -/
theorem travel_exact {speak : Asn 2 → Bytes → Bytes} (speaks : Speaks speak) (legs : List Leg) (path : AsPath 4)
    (aggregator : Option Bytes) (whole : ∀ aggr ∈ aggregator, aggr.length = 8)
    (few : (items path).length + (legs.flatMap Leg.hops).length ≤ asPathMaxlen) :
    match arrive legs (items path) with
    | none => legs.foldlM (fun attrs leg => leg.travel speak attrs) ⟨encode path, aggregator⟩ = none
    | some list =>
        (∃ after : AsPath 4, items after = list ∧
          legs.foldlM (fun attrs leg => leg.travel speak attrs) ⟨encode path, aggregator⟩ = some ⟨encode after, aggregator⟩) ∨
        (legs.foldlM (fun attrs leg => leg.travel speak attrs) ⟨encode path, aggregator⟩ = none ∧
          Skipped speak legs ⟨encode path, aggregator⟩) := by
  induction legs generalizing path with
  | nil => exact .inl ⟨path, rfl, rfl⟩
  | cons leg rest ih =>
      rw [List.flatMap_cons, List.length_append] at few
      rw [List.foldlM_cons]
      by_cases fits : leg.Fits ⟨asPathPrepend (encode path) leg.sender, aggregator⟩
      case neg =>
        have gone : leg.travel speak ⟨encode path, aggregator⟩ = none := Leg.deliver_eq_none speak fits
        rw [gone]
        cases arrive (leg :: rest) (items path) with
        | none => rfl
        | some list => exact .inr ⟨rfl, [], leg, rest, _, rfl, rfl, fits⟩
      obtain ⟨middle, listed, travelled⟩ := leg.travel_eq speaks path fits whole (by omega)
      rw [arrive]
      by_cases loopy : leg.session.Loopy (leg.hops ++ items path)
      · rw [travelled, if_pos loopy, if_pos loopy]
        rfl
      · rw [if_neg loopy] at travelled
        rw [travelled, if_neg loopy, ← listed]
        have rest_exact := ih middle (by rw [listed, List.length_append]; omega)
        cases arrived : arrive rest (items middle) with
        | none =>
            rw [arrived] at rest_exact
            exact rest_exact
        | some list =>
            rw [arrived] at rest_exact
            exact rest_exact.imp id fun none => ⟨none.1, none.2.cons travelled⟩

def exampleSpeak (as : Asn 2) (path : Bytes) : Bytes := (single as).bytes ++ path

theorem exampleSpeak_speaks : Speaks exampleSpeak := fun as path => ⟨single as :: path, rfl, rfl⟩

/-- A sender with a large number, and two old speakers on the way. -/
def exampleLeg : Leg := ⟨4200000000, [47065, 2914], ⟨false, 2914, 3356, 0⟩, ⟨3049, some, some⟩, nofun⟩

theorem travel_exact_example : ∃ after : AsPath 4, items after = [.asn 2914, .asn 47065, .asn 4200000000] ∧
    exampleLeg.travel exampleSpeak ⟨[], none⟩ = some ⟨encode after, none⟩ := by
  have arrived : arrive [exampleLeg] (items []) = some [.asn 2914, .asn 47065, .asn 4200000000] := by
    have known : ¬ exampleLeg.session.Loopy (exampleLeg.hops ++ items []) := by decide
    rw [arrive, if_neg known]
    rfl
  have travelled := travel_exact exampleSpeak_speaks [exampleLeg] [] none nofun (by decide)
  have sent : exampleLeg.travel exampleSpeak ⟨[], none⟩ ≠ none := by decide +kernel
  rw [arrived, List.foldlM_cons] at travelled
  simpa [sent] using travelled

end Travel

end ActiveBgp.Bird.Path

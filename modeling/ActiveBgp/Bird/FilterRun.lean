import ActiveBgp.Bird.FilterText
import ActiveBgp.Bird.PathMask
import ActiveBgp.Bird.SetAttributes
import ActiveBgp.Data.Contracts
import ActiveBgp.Data.Search

namespace ActiveBgp.Bird.Filter

open ActiveBgp.Python ActiveBgp.Bird.Path ActiveBgp.Bird.SetAttribute ActiveBgp.Data.Contracts ActiveBgp.Data.Exploration

/-! # Running a filter

A filter is a list of instructions that read a route and set its attributes.  With
`FF_FORCE_TMPATTR`, what is set goes to the temporary attributes.  Function calls,
variables, `case`, sets, static attributes and `roa_check` are left out.
-/

section Values

inductive Ty where
  | void | bool | int | pair | quad | ip | px | string | enumEmpty | ec | lc | path | clist | eclist | lclist | pathMask
  deriving DecidableEq

deriving instance DecidableEq for Mask

/-- `struct f_val` -/
inductive Value where
  | void
  | bool (i : Bool)
  | int (i : UInt32)
  | pair (i : UInt32)
  | quad (i : UInt32)
  | ip (ip : IpAddr)
  | px (ip : IpAddr) (len : Nat)
  | string (s : Text)
  | enumEmpty
  | ec (ec : ExtendedCommunity)
  | lc (lc : LargeCommunity)
  | path (ad : Bytes)
  | clist (ad : List Community)
  | eclist (ad : List ExtendedCommunity)
  | lclist (ad : List LargeCommunity)
  | pathMask (mask : List Mask)
  deriving DecidableEq

def Value.type : Value → Ty
  | .void => .void
  | .bool _ => .bool
  | .int _ => .int
  | .pair _ => .pair
  | .quad _ => .quad
  | .ip _ => .ip
  | .px _ _ => .px
  | .string _ => .string
  | .enumEmpty => .enumEmpty
  | .ec _ => .ec
  | .lc _ => .lc
  | .path _ => .path
  | .clist _ => .clist
  | .eclist _ => .eclist
  | .lclist _ => .lclist
  | .pathMask _ => .pathMask

/-- The values that are kept in the data of an attribute. -/
def Ty.isList (type : Ty) : Bool := type ∈ [.path, .clist, .eclist, .lclist]

/-- A value that the text of a filter can have; there are no such paths and lists. -/
structure Constant where
  value : Value
  simple : value.type.isList = false

inductive EaType where
  | int | opaqueData | ipAddress | routerId | asPath | intSet | ecSet | lcSet

/-- What an attribute of the type has. -/
def EaType.Data : EaType → Type
  | .int | .routerId => UInt32
  | .opaqueData | .asPath => Bytes
  | .ipAddress => IpAddr
  | .intSet => List Community
  | .ecSet => List ExtendedCommunity
  | .lcSet => List LargeCommunity

/-- The attributes of BGP, less the aggregator. -/
inductive Attribute where
  | bgpOrigin | bgpPath | bgpNextHop | bgpMed | bgpLocalPref | bgpAtomicAggr | bgpCommunity | bgpOriginatorId
  | bgpClusterList | bgpExtCommunity | bgpLargeCommunity
  deriving DecidableEq

def Attribute.type : Attribute → EaType
  | .bgpOrigin | .bgpMed | .bgpLocalPref => .int
  | .bgpPath => .asPath
  | .bgpNextHop => .ipAddress
  | .bgpAtomicAggr => .opaqueData
  | .bgpCommunity | .bgpClusterList => .intSet
  | .bgpOriginatorId => .routerId
  | .bgpExtCommunity => .ecSet
  | .bgpLargeCommunity => .lcSet

/-- An attribute without data is one that was unset. -/
structure Eattr where
  code : Attribute
  data : Option code.type.Data

def eaFind (code : Attribute) : List Eattr → Option code.type.Data
  | [] => none
  | e :: rest => if same : e.code = code then same ▸ e.data else eaFind code rest

structure Route where
  net : IpAddr × Nat
  pref : UInt32
  eattrs : List Eattr

/-- The route and its temporary attributes. -/
structure State where
  rte : Route
  tmpAttrs : List Eattr

end Values

section Operations

/-- The command that ends a filter, or only prints something. -/
inductive Break where
  | nop | nonl | accept | reject | error | quitbird
  deriving DecidableEq

/-- How the interpreter is left before the last instruction.  Two ways are not in the source: the array of
`as_path_match` is full, and something is read beyond the data. -/
inductive Stop where
  | verdict (code : Break)
  | runtime (message : String)
  | returned (v : Value)
  | full
  | beyond
  deriving DecidableEq

abbrev Step := Except Stop

def runtime {α : Type} (message : String) : Step α := .error (.runtime message)

/-- The result of a function that reads a path. -/
def fromPath {α : Type} : Option α → Step α
  | some found => .ok found
  | none => .error .beyond

/-- What the memory for new lists held before. -/
structure Memory where
  ints : Nat → Community
  ecs : Nat → ExtendedCommunity
  lcs : Nat → LargeCommunity

structure Context where
  lib : Library
  memory : Memory
  /-- `FF_FORCE_TMPATTR` -/
  force : Bool

def uintCmp (i1 i2 : UInt32) : Int := (if i1 > i2 then 1 else 0) - if i1 < i2 then 1 else 0

def valCompare (lib : Library) : Value → Value → Option Int
  | .void, .void => some 0
  | .void, _ => some (-1)
  | _, .void => some 1
  | .quad i, .ip ip => some (uintCmp i ip)
  | .ip ip, .quad i => some (uintCmp ip i)
  | .bool i1, .bool i2 => some (uintCmp i1.toUInt32 i2.toUInt32)
  | .int i1, .int i2 | .pair i1, .pair i2 | .quad i1, .quad i2 => some (uintCmp i1 i2)
  | .enumEmpty, .enumEmpty => some 0
  | .ec v1, .ec v2 => some (if v1.1 ≠ v2.1 then uintCmp v1.1 v2.1 else uintCmp v1.2 v2.2)
  | .lc v1, .lc v2 =>
      some (if v1.1 ≠ v2.1 then uintCmp v1.1 v2.1
        else if v1.2.1 ≠ v2.2.1 then uintCmp v1.2.1 v2.2.1 else uintCmp v1.2.2 v2.2.2)
  | .ip ip1, .ip ip2 => some (lib.ipaCompare ip1 ip2)
  | .px ip1 len1, .px ip2 len2 =>
      some (if lib.ipaCompare ip1 ip2 ≠ 0 then lib.ipaCompare ip1 ip2 else uintCmp (UInt32.ofNat len1) (UInt32.ofNat len2))
  | .string s1, .string s2 => some (lib.strcmp s1 s2)
  | _, _ => none

def valSame (lib : Library) (v1 v2 : Value) : Bool :=
  match valCompare lib v1 v2 with
  | some rc => rc == 0
  | none => v1 = v2

/-- The number as the functions for paths have it. -/
def asn (i : UInt32) : Asn 4 := ⟨i.toNat, i.toNat_lt⟩

def ofAsn (as : Asn 4) : UInt32 := UInt32.ofNat as.val

def pathMatch (ad : Bytes) (mask : List Mask) : Step Bool :=
  match asPathMatch ad mask, parsePath ad with
  | some found, _ => .ok found
  | none, some _ => .error .full
  | none, none => .error .beyond

/-- `val_in_range`, where no value stands for `CMP_ERROR`. -/
def valInRange (lib : Library) : Value → Value → Step (Option Bool)
  | .path ad, .pathMask mask => some <$> pathMatch ad mask
  | .int i, .path ad => some <$> fromPath (asPathContains ad (asn i) 1)
  | .pair i, .clist ad | .quad i, .clist ad | .ip i, .clist ad => .ok (some (intSetContains (some ad) i))
  | .ec ec, .eclist ad => .ok (some (ecSetContains (some ad) ec))
  | .lc lc, .lclist ad => .ok (some (lcSetContains (some ad) lc))
  | .string s1, .string s2 => .ok (some (lib.patmatch s2 s1))
  | .ip ip, .px net len => .ok (some (lib.ipaInNet ip net len))
  | .px ip1 len1, .px ip2 len2 => .ok (some (lib.netInNet ip1 len1 ip2 len2))
  | _, _ => .ok none

inductive Unary where
  | not | defined | length | ip | asPathFirst | asPathLast | asPathLastNag

def Unary.apply : Unary → Value → Step Value
  | .not, .bool i => .ok (.bool (!i))
  | .not, _ => runtime "Not applied to non-boolean"
  | .defined, v1 => .ok (.bool (v1.type ≠ .void))
  | .length, .px _ len => .ok (.int (UInt32.ofNat len))
  | .length, .path ad => (fun len => .int (UInt32.ofNat len)) <$> fromPath (asPathGetlen ad)
  | .length, .clist ad => .ok (.int (UInt32.ofNat ad.length))
  | .length, .eclist ad => .ok (.int (UInt32.ofNat ad.length))
  | .length, .lclist ad => .ok (.int (UInt32.ofNat ad.length))
  | .length, _ => runtime "Prefix, path, clist or eclist expected"
  | .ip, .px addr _ => .ok (.ip addr)
  | .ip, _ => runtime "Prefix expected"
  | .asPathFirst, .path ad => .ok (.int (ofAsn ((asPathGetFirst ad).getD 0)))
  | .asPathLast, .path ad => (fun as => .int (ofAsn (as.getD 0))) <$> fromPath (asPathGetLast ad)
  | .asPathLastNag, .path ad => (fun as => .int (ofAsn as)) <$> fromPath (asPathGetLastNonaggregated ad)
  | _, _ => runtime "AS path expected"

inductive ListOperation where
  | add | delete | filter

/-- The second value is one element or a list. -/
def changeList {α : Type} [DecidableEq α] (memory : Nat → α) (element : String) (aux : ListOperation) (ad : List α) :
    α ⊕ List α → Step (List α)
  | .inl val => match aux with
    | .add => .ok ((setAdd (some ad) val).getD [])
    | .delete => .ok ((setDel memory (some ad) val).getD [])
    | .filter => runtime ("Can't filter " ++ element)
  | .inr other => match aux with
    | .add => .ok ((setUnion (some ad) (some other)).getD [])
    | .delete => .ok ((setFilter (some ad) (setContains (some other)) false).getD [])
    | .filter => .ok ((setFilter (some ad) (setContains (some other)) true).getD [])

/-- `FI_CLIST_ADD_DEL` -/
def clistAddDel (memory : Memory) (aux : ListOperation) : Value → Value → Step Value
  | .path ad, .int key => match aux with
    | .add => runtime "Can't add to path"
    | .delete => .path <$> fromPath (asPathFilter ad (· == asn key) false)
    | .filter => runtime "Can't filter integer"
  | .path _, _ => runtime "Can't delete non-integer (set)"
  | .clist ad, .pair n | .clist ad, .quad n | .clist ad, .ip n =>
      .clist <$> changeList memory.ints "pair" aux ad (.inl n)
  | .clist ad, .clist other => .clist <$> changeList memory.ints "pair" aux ad (.inr other)
  | .clist _, _ => runtime "Can't add/delete non-pair"
  | .eclist ad, .ec ec => .eclist <$> changeList memory.ecs "ec" aux ad (.inl ec)
  | .eclist ad, .eclist other => .eclist <$> changeList memory.ecs "ec" aux ad (.inr other)
  | .eclist _, _ => runtime "Can't add/delete non-ec"
  | .lclist ad, .lc lc => .lclist <$> changeList memory.lcs "lc" aux ad (.inl lc)
  | .lclist ad, .lclist other => .lclist <$> changeList memory.lcs "lc" aux ad (.inr other)
  | .lclist _, _ => runtime "Can't add/delete non-lc"
  | _, _ => runtime "Can't add/delete to non-[e|l]clist"

inductive Arith where
  | add | subtract | multiply | divide

def arith : Arith → Value → Value → Step Value
  | .add, .int i1, .int i2 => .ok (.int (i1 + i2))
  | .subtract, .int i1, .int i2 => .ok (.int (i1 - i2))
  | .multiply, .int i1, .int i2 => .ok (.int (i1 * i2))
  | .divide, .int i1, .int i2 => if i2 = 0 then runtime "Mother told me not to divide by 0" else .ok (.int (i1 / i2))
  | _, v1, v2 =>
      if v1.type ≠ v2.type then runtime "Can't operate with values of incompatible types"
      else if v1 = .void then runtime "Can't operate with values of type void"
      else runtime "Usage of unknown type"

def pairConstruct : Value → Value → Step Value
  | .int u1, .int u2 =>
      if u1 > 0xFFFF ∨ u2 > 0xFFFF then runtime "Can't operate with value out of bounds in pair constructor"
      else .ok (.pair (u1 <<< 16 ||| u2))
  | _, _ => runtime "Can't operate with value of non-integer type in pair constructor"

/-- The halves of an extended community. -/
def ecHalves (ec : UInt64) : ExtendedCommunity := ((ec >>> 32).toUInt32, ec.toUInt32)

def ecGeneric (key val : UInt64) : ExtendedCommunity := ecHalves (key <<< 32 ||| val)

def ecAs2 (kind key val : UInt64) : ExtendedCommunity := ecHalves (kind <<< 48 ||| key <<< 32 ||| val)

def ecAs4 (kind key val : UInt64) : ExtendedCommunity := ecHalves ((kind ||| 0x0200) <<< 48 ||| key <<< 16 ||| val)

def ecIp4 (kind key val : UInt64) : ExtendedCommunity := ecHalves ((kind ||| 0x0100) <<< 48 ||| key <<< 16 ||| val)

/-- The key as a number, and whether it is an address. -/
def ecKey : Value → Option (UInt32 × Bool)
  | .int i => some (i, false)
  | .quad i | .ip i => some (i, true)
  | _ => none

def ecConstruct (kind : UInt16) (v1 v2 : Value) : Step Value :=
  match ecKey v1, v2 with
  | none, _ => runtime "Can't operate with key of non-integer/IPv4 type in EC constructor"
  | some (key, ipv4Used), .int val =>
      if kind = 0xFFFF then .ok (.ec (ecGeneric key.toUInt64 val.toUInt64))
      else if ipv4Used = false ∧ key < 0x10000 then .ok (.ec (ecAs2 kind.toUInt64 key.toUInt64 val.toUInt64))
      else if val > 0xFFFF then runtime "Can't operate with value out of bounds in EC constructor"
      else .ok (.ec ((if ipv4Used then ecIp4 else ecAs4) kind.toUInt64 key.toUInt64 val.toUInt64))
  | _, _ => runtime "Can't operate with value of non-integer type in EC constructor"

def lcConstruct : Value → Value → Value → Step Value
  | .int v1, .int v2, .int v3 => .ok (.lc (v1, v2, v3))
  | _, _, _ => runtime "Can't operate with value of non-integer type in LC constructor"

inductive Binary where
  | arith (op : Arith)
  | pairConstruct
  | ecConstruct (kind : UInt16)
  | neq | eq | lt | lte | matching | notMatching | pathPrepend
  | clistAddDel (aux : ListOperation)

def Binary.apply (ctx : Context) : Binary → Value → Value → Step Value
  | .arith op, v1, v2 => Filter.arith op v1 v2
  | .pairConstruct, v1, v2 => Filter.pairConstruct v1 v2
  | .ecConstruct kind, v1, v2 => Filter.ecConstruct kind v1 v2
  | .neq, v1, v2 => .ok (.bool (!valSame ctx.lib v1 v2))
  | .eq, v1, v2 => .ok (.bool (valSame ctx.lib v1 v2))
  | .lt, v1, v2 => match valCompare ctx.lib v1 v2 with
    | some i => .ok (.bool (i == -1))
    | none => runtime "Can't compare values of incompatible types"
  | .lte, v1, v2 => match valCompare ctx.lib v1 v2 with
    | some i => .ok (.bool (i != 1))
    | none => runtime "Can't compare values of incompatible types"
  | .matching, v1, v2 => do
      match ← valInRange ctx.lib v1 v2 with
      | some i => .ok (.bool i)
      | none => runtime "~ applied on unknown type pair"
  | .notMatching, v1, v2 => do
      match ← valInRange ctx.lib v1 v2 with
      | some i => .ok (.bool (!i))
      | none => runtime "!~ applied on unknown type pair"
  | .pathPrepend, .path ad, .int i => .ok (.path (asPathPrepend ad (asn i)))
  | .pathPrepend, .path _, _ => runtime "Can't prepend non-integer"
  | .pathPrepend, _, _ => runtime "Can't prepend to non-path"
  | .clistAddDel aux, v1, v2 => Filter.clistAddDel ctx.memory aux v1 v2

/-- The value of an attribute with data. -/
def Value.ofData : (type : EaType) → type.Data → Value
  | .int, data => .int data
  | .routerId, data => .quad data
  | .opaqueData, _ => .enumEmpty
  | .ipAddress, ad => .ip ad
  | .asPath, ad => .path ad
  | .intSet, ad => .clist ad
  | .ecSet, ad => .eclist ad
  | .lcSet, ad => .lclist ad

/-- The value of an attribute that is not there. -/
def Value.ofNone : EaType → Value
  | .intSet => .clist []
  | .ecSet => .eclist []
  | .lcSet => .lclist []
  | _ => .void

def Value.toData : (type : EaType) → Value → Step type.Data
  | .int, .int data => .ok data
  | .int, .enumEmpty => .ok (0 : UInt32)
  | .int, _ => runtime "Setting int attribute to non-int value"
  | .routerId, .ip data | .routerId, .quad data | .routerId, .int data => .ok data
  | .routerId, _ => runtime "Setting quad attribute to non-quad value"
  | .opaqueData, _ => runtime "Setting opaque attribute is not allowed"
  | .ipAddress, .ip addr => .ok addr
  | .ipAddress, _ => runtime "Setting ip attribute to non-ip value"
  | .asPath, .path ad => .ok ad
  | .asPath, _ => runtime "Setting path attribute to non-path value"
  | .intSet, .clist ad => .ok ad
  | .intSet, _ => runtime "Setting clist attribute to non-clist value"
  | .ecSet, .eclist ad => .ok ad
  | .ecSet, _ => runtime "Setting eclist attribute to non-eclist value"
  | .lcSet, .lclist ad => .ok ad
  | .lcSet, _ => runtime "Setting lclist attribute to non-lclist value"

/-- The attribute that an instruction reads: with `FF_FORCE_TMPATTR` the temporary ones come first. -/
def State.eaGet (force : Bool) (code : Attribute) (state : State) : Value :=
  let found := if force then (eaFind code state.tmpAttrs).or (eaFind code state.rte.eattrs)
    else (eaFind code state.rte.eattrs).or (eaFind code state.tmpAttrs)
  match found with
  | some data => .ofData code.type data
  | none => .ofNone code.type

def State.eaSet (tmp : Bool) (e : Eattr) (state : State) : State :=
  if tmp then { state with tmpAttrs := e :: state.tmpAttrs }
  else { state with rte := { state.rte with eattrs := e :: state.rte.eattrs } }

end Operations

section Interpreter

/-- `struct f_inst`; a list is a chain of instructions. -/
inductive Inst where
  | constant (value : Constant)
  | unary (op : Unary) (a1 : Inst)
  | binary (op : Binary) (a1 a2 : Inst)
  | andOr (isOr : Bool) (a1 a2 : Inst)
  | lcConstruct (a1 a2 a3 : Inst)
  | print (a1 : Inst)
  | condition (a1 : Inst) (a2 : List Inst)
  | printAndDie (a1 : List Inst) (code : Break)
  | rtaGetNet
  | eaGet (code : Attribute)
  | eaSet (code : Attribute) (a1 : Inst)
  | eaUnset (code : Attribute)
  | prefGet
  | prefSet (a1 : Inst)
  | return (a1 : Inst)
  | empty (type : EaType)

abbrev Run := EStateM Stop State

def Step.lift {α : Type} : Step α → Run α
  | .ok value => pure value
  | .error stop => throw stop

mutual

def Inst.interpret (ctx : Context) : Inst → Run Value
  | .constant value => pure value.value
  | .unary op a1 => do
      let v1 ← a1.interpret ctx
      Step.lift (op.apply v1)
  | .binary op a1 a2 => do
      let v1 ← a1.interpret ctx
      let v2 ← a2.interpret ctx
      Step.lift (op.apply ctx v1 v2)
  | .andOr isOr a1 a2 => do
      match ← a1.interpret ctx with
      | .bool i =>
          if i = isOr then pure (.bool i)
          else
            match ← a2.interpret ctx with
            | .bool i => pure (.bool i)
            | _ => throw (.runtime "Can't do boolean operation on non-booleans")
      | _ => throw (.runtime "Can't do boolean operation on non-booleans")
  | .lcConstruct a1 a2 a3 => do
      let v1 ← a1.interpret ctx
      let v2 ← a2.interpret ctx
      let v3 ← a3.interpret ctx
      Step.lift (Filter.lcConstruct v1 v2 v3)
  | .print a1 => do
      let _ ← a1.interpret ctx
      pure .void
  | .condition a1 a2 => do
      match ← a1.interpret ctx with
      | .bool true =>
          let _ ← interpretAll ctx .void a2
          pure (.bool false)
      | .bool false => pure (.bool true)
      | _ => throw (.runtime "If requires boolean expression")
  | .printAndDie a1 code => do
      let _ ← interpretAll ctx .void a1
      if code = .nonl ∨ code = .nop then pure .void else throw (.verdict code)
  | .rtaGetNet => do
      let state ← get
      pure (.px state.rte.net.1 state.rte.net.2)
  | .eaGet code => do
      let state ← get
      pure (state.eaGet ctx.force code)
  | .eaSet code a1 => do
      let v1 ← a1.interpret ctx
      let data ← Step.lift (v1.toData code.type)
      modify (State.eaSet ctx.force ⟨code, some data⟩)
      pure .void
  | .eaUnset code => do
      modify (State.eaSet true ⟨code, none⟩)
      pure .void
  | .prefGet => do
      let state ← get
      pure (.int state.rte.pref)
  | .prefSet a1 => do
      match ← a1.interpret ctx with
      | .int i =>
          if i > 0xFFFF then throw (.runtime "Setting preference value out of bounds")
          else
            modify fun state => { state with rte := { state.rte with pref := i } }
            pure .void
      | _ => throw (.runtime "Can't set preference to non-integer")
  | .return a1 => do
      let v1 ← a1.interpret ctx
      throw (.returned v1)
  | .empty type => pure (match type with
      | .asPath => .path []
      | type => .ofNone type)

/-- `for ( ; what; what = what->next)` -/
def interpretAll (ctx : Context) (res : Value) : List Inst → Run Value
  | [] => pure res
  | what :: next => do
      let res ← what.interpret ctx
      interpretAll ctx res next

end

/-- The result of a filter and the route as it is left; there is no result where BIRD ends or breaks. -/
def verdict : EStateM.Result Stop State Value → Option Break × State
  | .ok _ state => (some .error, state)
  | .error (.verdict code) state => (if code = .quitbird then none else some code, state)
  | .error (.runtime _) state | .error (.returned _) state => (some .error, state)
  | .error .full state | .error .beyond state => (none, state)

def fRun (ctx : Context) (root : List Inst) (state : State) : Option Break × State :=
  verdict (interpretAll ctx .void root state)

/-- The route as it is exported, after `import_control`. -/
def exportFilter (ctx : Context) (root : List Inst) (state : State) : Option State :=
  match fRun { ctx with force := true } root state with
  | (some .accept, state) => some state
  | _ => none

end Interpreter

section Rules

variable {ctx : Context} {state middle after : State}

end Rules

section Validity

variable {ctx : Context} {memory other : Memory}

/-- Paths are valid, and sets have no duplicates. -/
def Value.Valid : Value → Prop
  | .path ad => ∃ path : AsPath 4, ad = encode path
  | .clist ad => ad.Nodup
  | .eclist ad => ad.Nodup
  | .lclist ad => ad.Nodup
  | _ => True

def Valid (attrs : List Eattr) : Prop :=
  ∀ e ∈ attrs, ∀ data, e.data = some data → (Value.ofData e.code.type data).Valid

/-- The result of an operation; nothing is read beyond the data. -/
def Step.Good {α : Type} (post : α → Prop) : Step α → Prop
  | .ok value => post value
  | .error stop => stop ≠ .beyond

theorem Value.valid_of_simple {value : Value} (simple : value.type.isList = false) : value.Valid := by
  cases value <;> trivial

theorem Value.valid_ofNone (type : EaType) : (Value.ofNone type).Valid := by
  cases type <;> first | trivial | exact List.nodup_nil

theorem good_runtime {α : Type} {post : α → Prop} (message : String) : (runtime message : Step α).Good post := nofun

theorem Unary.good (op : Unary) {v1 : Value} (valid : v1.Valid) : (op.apply v1).Good Value.Valid := by
  cases op <;> cases v1 <;> try (first | trivial | exact good_runtime _)
  all_goals
    obtain ⟨path, rfl⟩ := valid
    simp only [apply, asPathGetlen_encode, asPathGetLast_encode, asPathGetLastNonaggregated_encode]
    trivial

section Lists

variable {α : Type} [DecidableEq α] {first second : Nat → α} {ad : List α}

theorem changeList_good (first second : Nat → α) (element : String) (aux : ListOperation) (nodup : ad.Nodup)
    (by_ : α ⊕ List α) (others : ∀ other, by_ = .inr other → other.Nodup) :
    changeList first element aux ad by_ = changeList second element aux ad by_ ∧
      (changeList first element aux ad by_).Good List.Nodup := by
  have run (memory : Nat → α) (change : Change α) : (change.run memory (some ad)).getD [] = change.apply ad :=
    @run_eq_apply _ _ memory change (some ad) nodup
  cases by_ with
  | inl val =>
      cases aux with
      | add => exact ⟨rfl, (congrArg List.Nodup (run first (.add val))).mpr ((Change.add val).nodup nodup)⟩
      | delete =>
          have same := (run first (.del val)).trans (run second (.del val)).symm
          exact ⟨congrArg Except.ok same, (congrArg List.Nodup (run first (.del val))).mpr ((Change.del val).nodup nodup)⟩
      | filter => exact ⟨rfl, good_runtime _⟩
  | inr other =>
      have own := others other rfl
      cases aux with
      | add => exact ⟨rfl, (congrArg List.Nodup (run first (.union other own))).mpr ((Change.union other own).nodup nodup)⟩
      | delete => exact ⟨rfl, nodup.filter _⟩
      | filter => exact ⟨rfl, nodup.filter _⟩

theorem Step.Good.map {α β : Type} {f : α → β} {post : α → Prop} {after : β → Prop} {result : Step α} (good : result.Good post)
    (maps : ∀ value, post value → after (f value)) : Step.Good after (f <$> result) := by
  cases result with
  | ok value => exact maps value good
  | error stop => exact good

/-- What the memory held before does not get into a list without duplicates. -/
theorem changeList_valid {wrap : List α → Value} (wraps : ∀ l : List α, l.Nodup → (wrap l).Valid) (first second : Nat → α)
    (element : String) (aux : ListOperation) (nodup : ad.Nodup) (by_ : α ⊕ List α)
    (others : ∀ other, by_ = .inr other → other.Nodup) :
    wrap <$> changeList first element aux ad by_ = wrap <$> changeList second element aux ad by_ ∧
      (wrap <$> changeList first element aux ad by_).Good Value.Valid := by
  obtain ⟨same, good⟩ := changeList_good first second element aux nodup by_ others
  exact ⟨congrArg _ same, good.map wraps⟩

end Lists

theorem clistAddDel_good (memory other : Memory) (aux : ListOperation) {v1 v2 : Value} (valid : v1.Valid) (also : v2.Valid) :
    clistAddDel memory aux v1 v2 = clistAddDel other aux v1 v2 ∧ (clistAddDel memory aux v1 v2).Good Value.Valid := by
  cases v1 with
  | path ad =>
      cases v2 <;> try exact ⟨rfl, good_runtime _⟩
      obtain ⟨path, rfl⟩ := valid
      cases aux with
      | delete =>
          simp only [clistAddDel, asPathFilter_encode]
          exact ⟨trivial, _, rfl⟩
      | _ => exact ⟨rfl, good_runtime _⟩
  | clist ad =>
      have wraps : ∀ l : List Community, l.Nodup → (Value.clist l).Valid := fun _ nodup => nodup
      cases v2 <;> try exact ⟨rfl, good_runtime _⟩
      case clist list => exact changeList_valid wraps _ _ _ aux valid (.inr list) fun _ eq => Sum.inr.inj eq ▸ also
      all_goals exact changeList_valid wraps _ _ _ aux valid (.inl _) nofun
  | eclist ad =>
      have wraps : ∀ l : List ExtendedCommunity, l.Nodup → (Value.eclist l).Valid := fun _ nodup => nodup
      cases v2 <;> try exact ⟨rfl, good_runtime _⟩
      case eclist list => exact changeList_valid wraps _ _ _ aux valid (.inr list) fun _ eq => Sum.inr.inj eq ▸ also
      case ec val => exact changeList_valid wraps _ _ _ aux valid (.inl val) nofun
  | lclist ad =>
      have wraps : ∀ l : List LargeCommunity, l.Nodup → (Value.lclist l).Valid := fun _ nodup => nodup
      cases v2 <;> try exact ⟨rfl, good_runtime _⟩
      case lclist list => exact changeList_valid wraps _ _ _ aux valid (.inr list) fun _ eq => Sum.inr.inj eq ▸ also
      case lc val => exact changeList_valid wraps _ _ _ aux valid (.inl val) nofun
  | _ => exact ⟨rfl, good_runtime _⟩

theorem valInRange_good (lib : Library) {v1 v2 : Value} (valid : v1.Valid) (also : v2.Valid) :
    (valInRange lib v1 v2).Good fun _ => True := by
  cases v1 <;> cases v2 <;> try trivial
  case path.pathMask ad mask =>
    obtain ⟨path, rfl⟩ := valid
    simp only [valInRange, pathMatch, parsePath_encode]
    cases asPathMatch (encode path) mask <;> first | trivial | exact nofun
  case int.path i ad =>
    obtain ⟨path, rfl⟩ := also
    simp only [valInRange, asPathContains_encode path (asn i) Nat.one_pos]
    trivial

theorem arith_good (op : Arith) (v1 v2 : Value) : (arith op v1 v2).Good Value.Valid := by
  have mismatch : (if v1.type ≠ v2.type then runtime "Can't operate with values of incompatible types"
      else if v1 = .void then runtime "Can't operate with values of type void"
      else runtime "Usage of unknown type" : Step Value).Good Value.Valid := by
    split
    · exact good_runtime _
    · split <;> exact good_runtime _
  unfold arith
  split
  · trivial
  · trivial
  · trivial
  · split <;> first | exact good_runtime _ | trivial
  · exact mismatch

theorem pairConstruct_good (v1 v2 : Value) : (pairConstruct v1 v2).Good Value.Valid := by
  unfold pairConstruct
  split
  · split <;> first | exact good_runtime _ | trivial
  · exact good_runtime _

theorem ecConstruct_good (kind : UInt16) (v1 v2 : Value) : (ecConstruct kind v1 v2).Good Value.Valid := by
  unfold ecConstruct
  split
  · exact good_runtime _
  · split
    · trivial
    · split
      · trivial
      · split <;> first | exact good_runtime _ | trivial
  · exact good_runtime _

theorem Binary.good (memory other : Memory) (op : Binary) (ctx : Context) {v1 v2 : Value} (valid : v1.Valid) (also : v2.Valid) :
    op.apply { ctx with memory := memory } v1 v2 = op.apply { ctx with memory := other } v1 v2 ∧
      (op.apply { ctx with memory := memory } v1 v2).Good Value.Valid := by
  cases op with
  | arith op => exact ⟨rfl, arith_good op v1 v2⟩
  | pairConstruct => exact ⟨rfl, pairConstruct_good v1 v2⟩
  | ecConstruct kind => exact ⟨rfl, ecConstruct_good kind v1 v2⟩
  | neq | eq => exact ⟨rfl, trivial⟩
  | lt | lte =>
      refine ⟨rfl, ?_⟩
      simp only [apply]
      split <;> first | exact good_runtime _ | trivial
  | matching | notMatching =>
      refine ⟨rfl, ?_⟩
      have inRange := valInRange_good ctx.lib valid also
      simp only [apply]
      cases found : valInRange ctx.lib v1 v2 with
      | error stop =>
          rw [found] at inRange
          exact inRange
      | ok i => cases i <;> first | exact good_runtime _ | trivial
  | pathPrepend =>
      cases v1 <;> cases v2 <;> try exact ⟨rfl, good_runtime _⟩
      obtain ⟨path, rfl⟩ := valid
      exact ⟨rfl, _, asPathPrepend_encode path _⟩
  | clistAddDel aux => exact clistAddDel_good memory other aux valid also

theorem toData_good (type : EaType) {v1 : Value} (valid : v1.Valid) :
    (v1.toData type).Good fun data => (Value.ofData type data).Valid := by
  cases type <;> cases v1 <;> first | exact good_runtime _ | exact valid

/-- A filter leaves the route's own attributes, where it is forced to. -/
def discipline (force : Bool) : Discipline Stop State where
  Holds state := Filter.Valid state.rte.eattrs ∧ Filter.Valid state.tmpAttrs
  Allowed stop := stop ≠ .beyond
  Steps before after := after.rte.net = before.rte.net ∧ (force = true → after.rte.eattrs = before.rte.eattrs)
  refl _ := ⟨rfl, fun _ => rfl⟩
  trans first second := ⟨second.1.trans first.1, fun force => (second.2 force).trans (first.2 force)⟩

theorem eaFind_valid {code : Attribute} {attrs : List Eattr} (valid : Filter.Valid attrs) {data : code.type.Data}
    (found : eaFind code attrs = some data) : (Value.ofData code.type data).Valid := by
  induction attrs with
  | nil => cases found
  | cons e rest ih =>
      obtain ⟨own, later⟩ := List.forall_mem_cons.mp valid
      rw [eaFind] at found
      split at found
      · next same =>
          subst same
          exact own data found
      · exact ih later found

theorem eaGet_valid (force : Bool) (code : Attribute) {state : State} (valid : (discipline force).Holds state) :
    (state.eaGet force code).Valid := by
  have either {first second : List Eattr} (one : Filter.Valid first) (two : Filter.Valid second) {data : code.type.Data}
      (found : (eaFind code first).or (eaFind code second) = some data) : (Value.ofData code.type data).Valid := by
    rcases Option.or_eq_some_iff.mp found with found | ⟨_, found⟩
    · exact eaFind_valid one found
    · exact eaFind_valid two found
  unfold State.eaGet
  simp only
  split
  · next data found =>
      split at found
      · exact either valid.2 valid.1 found
      · exact either valid.1 valid.2 found
  · exact Value.valid_ofNone code.type

theorem keeps_lift {α : Type} {post : α → Prop} {first second : Step α} {force : Bool} (same : first = second)
    (good : first.Good post) : (discipline force).Keeps post first.lift second.lift := by
  subst same
  cases first with
  | ok value => exact .pure good
  | error stop => exact .throw good

theorem keeps_eaSet {force tmp : Bool} (e : Eattr) (temporary : force = true → tmp = true)
    (valid : ∀ data, e.data = some data → (Value.ofData e.code.type data).Valid) :
    (discipline force).Keeps (fun _ => True) (modify (State.eaSet tmp e)) (modify (State.eaSet tmp e)) := by
  refine .modify (fun _ _ => rfl) fun state holds => ?_
  cases tmp with
  | true => exact ⟨⟨holds.1, List.forall_mem_cons.mpr ⟨valid, holds.2⟩⟩, rfl, fun _ => rfl⟩
  | false => exact ⟨⟨List.forall_mem_cons.mpr ⟨valid, holds.1⟩, holds.2⟩, rfl, fun force => nomatch temporary force⟩

theorem keeps_runtime {force : Bool} (message : String) {post : Value → Prop} :
    (discipline force).Keeps post (throw (.runtime message)) (throw (.runtime message)) := .throw nofun

mutual

theorem Inst.keeps (ctx : Context) (other : Memory) : (what : Inst) → (discipline ctx.force).Keeps Value.Valid
    (what.interpret ctx) (what.interpret { ctx with memory := other })
  | .constant value => .pure (Value.valid_of_simple value.simple)
  | .unary op a1 => (a1.keeps ctx other).bind fun _ valid => keeps_lift rfl (op.good valid)
  | .binary op a1 a2 =>
      (a1.keeps ctx other).bind fun _ valid => (a2.keeps ctx other).bind fun _ also =>
        have both := op.good ctx.memory other ctx valid also
        keeps_lift both.1 both.2
  | .andOr isOr a1 a2 => by
      refine (a1.keeps ctx other).bind fun v1 _ => ?_
      cases v1 with
      | bool i =>
          by_cases decided : i = isOr
          · simp only [if_pos decided]
            exact .pure trivial
          · simp only [if_neg decided]
            refine (a2.keeps ctx other).bind fun v2 _ => ?_
            cases v2 with
            | bool i => exact .pure trivial
            | _ => exact keeps_runtime _
      | _ => exact keeps_runtime _
  | .lcConstruct a1 a2 a3 => by
      refine (a1.keeps ctx other).bind fun v1 _ => (a2.keeps ctx other).bind fun v2 _ => (a3.keeps ctx other).bind fun v3 _ => ?_
      refine keeps_lift rfl ?_
      unfold Filter.lcConstruct
      split
      · trivial
      · exact good_runtime _
  | .print a1 => (a1.keeps ctx other).bind fun _ _ => .pure trivial
  | .condition a1 a2 => by
      refine (a1.keeps ctx other).bind fun v1 _ => ?_
      cases v1 with
      | bool i =>
          cases i with
          | true => exact (keepsAll ctx other .void trivial a2).bind fun _ _ => .pure trivial
          | false => exact .pure trivial
      | _ => exact keeps_runtime _
  | .printAndDie a1 code => by
      refine (keepsAll ctx other .void trivial a1).bind fun _ _ => ?_
      split
      · exact .pure trivial
      · exact .throw nofun
  | .rtaGetNet => Discipline.Keeps.get.bind fun _ _ => .pure trivial
  | .eaGet code => Discipline.Keeps.get.bind fun _ holds => .pure (eaGet_valid ctx.force code holds)
  | .eaSet code a1 =>
      (a1.keeps ctx other).bind fun _ valid => (keeps_lift rfl (toData_good code.type valid)).bind fun data own =>
        (keeps_eaSet ⟨code, some data⟩ id fun _ same => Option.some.inj same ▸ own).bind fun _ _ => .pure trivial
  | .eaUnset code => (keeps_eaSet ⟨code, none⟩ (fun _ => rfl) nofun).bind fun _ _ => .pure trivial
  | .prefGet => Discipline.Keeps.get.bind fun _ _ => .pure trivial
  | .prefSet a1 => by
      refine (a1.keeps ctx other).bind fun v1 _ => ?_
      cases v1 with
      | int i =>
          by_cases large : i > 0xFFFF
          · simp only [if_pos large]
            exact keeps_runtime _
          · simp only [if_neg large]
            have written : (discipline ctx.force).Keeps (fun _ => True)
                (modify fun state => { state with rte := { state.rte with pref := i } })
                (modify fun state => { state with rte := { state.rte with pref := i } }) :=
              .modify (fun _ _ => rfl) fun _ holds => ⟨holds, rfl, fun _ => rfl⟩
            exact written.bind fun _ _ => .pure trivial
      | _ => exact keeps_runtime _
  | .return a1 => (a1.keeps ctx other).bind fun _ _ => .throw nofun
  | .empty type => by
      refine .pure ?_
      split
      · exact ⟨[], rfl⟩
      · exact Value.valid_ofNone _

theorem keepsAll (ctx : Context) (other : Memory) (res : Value) (valid : res.Valid) : (root : List Inst) →
    (discipline ctx.force).Keeps Value.Valid (interpretAll ctx res root) (interpretAll { ctx with memory := other } res root)
  | [] => .pure valid
  | what :: next => (what.keeps ctx other).bind fun res valid => keepsAll ctx other res valid next

end

/-- The functions for addresses as far as the examples need them. -/
def exampleLibrary : Library where
  ip4Pton text := if text = "184.164.224.0".toList then some 0xB8A4E000 else none
  ipIsPrefix a len := a.toNat % 2 ^ (32 - len) = 0
  ipaCompare first second := (first.toNat : Int) - second.toNat
  ipaInNet a net len := a.toNat / 2 ^ (32 - len) = net.toNat / 2 ^ (32 - len)
  netInNet a alen net len := len ≤ alen ∧ a.toNat / 2 ^ (32 - len) = net.toNat / 2 ^ (32 - len)
  patmatch pattern text := pattern = text
  strcmp first second := if first = second then 0 else 1
  compares first second := by rw [← UInt32.toNat_inj]; omega

def exampleContext : Context := ⟨exampleLibrary, ⟨fun _ => 0, fun _ => 0, fun _ => 0⟩, true⟩

end Validity

end ActiveBgp.Bird.Filter

import ActiveBgp.Bird.FilterRun

namespace ActiveBgp.Bird.Filter

open ActiveBgp.Python ActiveBgp.Bird.Path

abbrev Parser (α : Type) := List Token → Option (α × List Token)

section Tokens

def keyword (name : String) : Token := .word name.toList

def take (token : Token) : Parser Unit
  | first :: rest => if first = token then some ((), rest) else none
  | [] => none

/-- `dynamic_attr` -/
def dynamicAttr (name : Text) : Option Attribute :=
  if name = "bgp_origin".toList then some .bgpOrigin
  else if name = "bgp_path".toList then some .bgpPath
  else if name = "bgp_next_hop".toList then some .bgpNextHop
  else if name = "bgp_med".toList then some .bgpMed
  else if name = "bgp_local_pref".toList then some .bgpLocalPref
  else if name = "bgp_atomic_aggr".toList then some .bgpAtomicAggr
  else if name = "bgp_community".toList then some .bgpCommunity
  else if name = "bgp_originator_id".toList then some .bgpOriginatorId
  else if name = "bgp_cluster_list".toList then some .bgpClusterList
  else if name = "bgp_ext_community".toList then some .bgpExtCommunity
  else if name = "bgp_large_community".toList then some .bgpLargeCommunity
  else none

def breakCommand (name : Text) : Option Break :=
  if name = "quitbird".toList then some .quitbird
  else if name = "accept".toList then some .accept
  else if name = "reject".toList then some .reject
  else if name = "error".toList then some .error
  else if name = "print".toList then some .nop
  else if name = "printn".toList then some .nonl
  else none

end Tokens

section Generators

/-- The value of an `FI_CONSTANT`; other constants are indirect. -/
def Inst.direct? : Inst → Option Value
  | .constant ⟨.int i, _⟩ => some (.int i)
  | .constant ⟨.bool i, _⟩ => some (.bool i)
  | .constant ⟨.string s, _⟩ => some (.string s)
  | .constant ⟨.pair i, _⟩ => some (.pair i)
  | _ => none

def Constant.ofValue (value : Value) : Option Inst :=
  if simple : value.type.isList = false then some (.constant ⟨value, simple⟩) else none

/-- A constructor of constants is one itself, where the values are as they should be. -/
def fold (result : Step Value) : Option Inst :=
  match result with
  | .ok value => Constant.ofValue value
  | .error _ => none

def fGenerateDpair (t1 t2 : Inst) : Option Inst :=
  match t1.direct?, t2.direct? with
  | some v1, some v2 => fold (pairConstruct v1 v2)
  | _, _ => some (.binary .pairConstruct t1 t2)

def fGenerateLc (t1 t2 t3 : Inst) : Option Inst :=
  match t1.direct?, t2.direct?, t3.direct? with
  | some v1, some v2, some v3 => fold (lcConstruct v1 v2 v3)
  | _, _, _ => some (.lcConstruct t1 t2 t3)

/-- Set the attribute to the result of an operation on it. -/
def fGenerateComplex (operation : Binary) (da : Attribute) (argument : Inst) : Inst :=
  .eaSet da (.binary operation (.eaGet da) argument)

def fGenerateEmpty (dyn : Attribute) : Option Inst :=
  match dyn.type with
  | .asPath | .intSet | .ecSet | .lcSet => some (.eaSet dyn (.empty dyn.type))
  | _ => none

end Generators

section Terms

/-- An operator between two terms: what it binds as, and what it makes of them. -/
def operator : Token → Option (Nat × (Inst → Inst → Inst))
  | .and => some (1, .andOr false)
  | .or => some (1, .andOr true)
  | .char '=' => some (2, .binary .eq)
  | .neq => some (2, .binary .neq)
  | .char '<' => some (2, .binary .lt)
  | .leq => some (2, .binary .lte)
  | .char '>' => some (2, fun a1 a2 => .binary .lt a2 a1)
  | .geq => some (2, fun a1 a2 => .binary .lte a2 a1)
  | .char '~' => some (2, .binary .matching)
  | .nma => some (2, .binary .notMatching)
  | .char '+' => some (3, .binary (.arith .add))
  | .char '-' => some (3, .binary (.arith .subtract))
  | .char '*' => some (4, .binary (.arith .multiply))
  | .char '/' => some (4, .binary (.arith .divide))
  | _ => none

/-- What may stand behind the point. -/
def property (name : Text) : Option Unary :=
  if name = "ip".toList then some .ip
  else if name = "len".toList then some .length
  else if name = "first".toList then some .asPathFirst
  else if name = "last".toList then some .asPathLast
  else if name = "last_nonaggregated".toList then some .asPathLastNag
  else none

/-- The operations that are written like functions of two arguments. -/
def operation (name : Text) : Option Binary :=
  if name = "prepend".toList then some .pathPrepend
  else if name = "add".toList then some (.clistAddDel .add)
  else if name = "delete".toList then some (.clistAddDel .delete)
  else if name = "filter".toList then some (.clistAddDel .filter)
  else none

/-- `bgp_path_tail1`, up to the end of the mask. -/
def bgpPathTail1 : Parser (List Mask)
  | .num val :: .ddot :: .num val2 :: rest => (bgpPathTail1 rest).map fun tail => (.asnRange (asn val) (asn val2) :: tail.1, tail.2)
  | .num val :: rest => (bgpPathTail1 rest).map fun tail => (.asn (asn val) :: tail.1, tail.2)
  | .char '*' :: rest => (bgpPathTail1 rest).map fun tail => (.asterisk :: tail.1, tail.2)
  | .char '?' :: rest => (bgpPathTail1 rest).map fun tail => (.question :: tail.1, tail.2)
  | .pc :: rest => some ([], rest)
  | _ => none

/-- `bgp_path_tail2`, where the question mark stands for any path. -/
def bgpPathTail2 : Parser (List Mask)
  | .num val :: rest => (bgpPathTail2 rest).map fun tail => (.asn (asn val) :: tail.1, tail.2)
  | .char '?' :: rest => (bgpPathTail2 rest).map fun tail => (.asterisk :: tail.1, tail.2)
  | .char '/' :: rest => some ([], rest)
  | _ => none

def constant (value : Value) (simple : value.type.isList = false) (rest : List Token) : Option (Inst × List Token) :=
  some (.constant ⟨value, simple⟩, rest)

/-- `fipa` and `fprefix_s`: behind an address, `/` is the beginning of the length. -/
def address (lib : Library) (ip : IpAddr) : Parser Inst
  | .char '/' :: .num len :: rest =>
      if len ≤ 32 ∧ lib.ipIsPrefix ip len.toNat then constant (.px ip len.toNat) rfl rest else none
  | .char '/' :: _ => none
  | rest => constant (.ip ip) rfl rest

/-- `+empty+` and the others. -/
def emptyTerm : Parser Inst
  | .char '+' :: .word name :: .char '+' :: rest => if name = "empty".toList then some (.empty .asPath, rest) else none
  | .char '-' :: .word name :: .char '-' :: rest => if name = "empty".toList then some (.empty .intSet, rest) else none
  | .char '-' :: .char '-' :: .word name :: .char '-' :: .char '-' :: rest =>
      if name = "empty".toList then some (.empty .ecSet, rest) else none
  | .char '-' :: .char '-' :: .char '-' :: .word name :: .char '-' :: .char '-' :: .char '-' :: rest =>
      if name = "empty".toList then some (.empty .lcSet, rest) else none
  | _ => none

mutual

/-- A term with operators that bind as tightly as `min` or more. -/
def term (lib : Library) : Nat → Nat → Parser Inst
  | 0, _, _ => none
  | fuel + 1, min, tokens => do
      let (left, rest) ← negation lib fuel tokens
      operators lib fuel min left rest

/-- The operators behind a term, from left to right. -/
def operators (lib : Library) : Nat → Nat → Inst → Parser Inst
  | 0, _, _, _ => none
  | fuel + 1, min, left, tokens =>
      match tokens.head?.bind operator with
      | none => some (left, tokens)
      | some (binds, build) =>
          if binds < min then some (left, tokens)
          else do
            let (right, rest) ← term lib fuel (binds + 1) tokens.tail
            -- `%nonassoc`
            if binds = 2 ∧ (rest.head?.bind operator).any (·.1 = 2) then none
            else operators lib fuel min (build left right) rest

def negation (lib : Library) : Nat → Parser Inst
  | 0, _ => none
  | fuel + 1, .char '!' :: rest => do
      let (a1, rest) ← negation lib fuel rest
      return (.unary .not a1, rest)
  | fuel + 1, tokens => do
      let (a1, rest) ← operand lib fuel tokens
      properties lib fuel a1 rest

def properties (lib : Library) : Nat → Inst → Parser Inst
  | 0, _, _ => none
  | fuel + 1, a1, .char '.' :: .word name :: rest =>
      match property name with
      | some op => properties lib fuel (.unary op a1) rest
      | none => none
  | _ + 1, a1, tokens => some (a1, tokens)

def operand (lib : Library) : Nat → Parser Inst
  | 0, _ => none
  | _ + 1, .num i :: rest => constant (.int i) rfl rest
  | _ + 1, .text t :: rest => constant (.string t) rfl rest
  | _ + 1, .ipa ip :: rest => address lib ip rest
  | _ + 1, .po :: rest => do
      let (mask, rest) ← bgpPathTail1 rest
      constant (.pathMask mask) rfl rest
  | _ + 1, .char '/' :: rest => do
      let (mask, rest) ← bgpPathTail2 rest
      constant (.pathMask mask) rfl rest
  | fuel + 1, .char '(' :: rest => do
      let (t1, rest) ← term lib fuel 0 rest
      match rest with
      | .char ')' :: rest => some (t1, rest)
      | .char ',' :: rest => do
          let (t2, rest) ← term lib fuel 0 rest
          match rest with
          | .char ')' :: rest => (fGenerateDpair t1 t2).map (·, rest)
          | .char ',' :: rest => do
              let (t3, rest) ← term lib fuel 0 rest
              let ((), rest) ← take (.char ')') rest
              (fGenerateLc t1 t2 t3).map (·, rest)
          | _ => none
      | _ => none
  | fuel + 1, .word name :: rest =>
      if name = "true".toList then constant (.bool true) rfl rest
      else if name = "false".toList then constant (.bool false) rfl rest
      else if name = "net".toList then some (.rtaGetNet, rest)
      else if name = "preference".toList then some (.prefGet, rest)
      else if name = "defined".toList then do
        let ((), rest) ← take (.char '(') rest
        let (a1, rest) ← term lib fuel 0 rest
        let ((), rest) ← take (.char ')') rest
        return (.unary .defined a1, rest)
      else
        match dynamicAttr name, operation name with
        | some code, _ => some (.eaGet code, rest)
        | none, some op => do
            let ((), rest) ← take (.char '(') rest
            let (a1, rest) ← term lib fuel 0 rest
            let ((), rest) ← take (.char ',') rest
            let (a2, rest) ← term lib fuel 0 rest
            let ((), rest) ← take (.char ')') rest
            return (.binary op a1 a2, rest)
        | none, none => none
  | _ + 1, tokens => emptyTerm tokens

end

end Terms

section Commands

/-- A term and what stands behind it. -/
def termThen (lib : Library) (fuel : Nat) (token : Token) : Parser Inst := fun tokens => do
  let (a1, rest) ← term lib fuel 0 tokens
  let ((), rest) ← take token rest
  return (a1, rest)

def printList (lib : Library) : Nat → Parser (List Inst)
  | 0, _ => none
  | _ + 1, .char ';' :: rest => some ([], .char ';' :: rest)
  | fuel + 1, tokens => do
      let (a1, rest) ← term lib fuel 0 tokens
      match rest with
      | .char ',' :: rest => do
          let (others, rest) ← printList lib fuel rest
          return (.print a1 :: others, rest)
      | rest => some ([.print a1], rest)

/-- The commands that start with an attribute. -/
def attrCommand (lib : Library) (fuel : Nat) (code : Attribute) : Parser Inst
  | .char '=' :: rest => do
      let (a1, rest) ← termThen lib fuel (.char ';') rest
      return (.eaSet code a1, rest)
  | .char '.' :: .word name :: rest =>
      if name = "empty".toList then do
        let ((), rest) ← take (.char ';') rest
        (fGenerateEmpty code).map (·, rest)
      else
        match operation name with
        | none => none
        | some op => do
            let ((), rest) ← take (.char '(') rest
            let (argument, rest) ← termThen lib fuel (.char ')') rest
            let ((), rest) ← take (.char ';') rest
            return (fGenerateComplex op code argument, rest)
  | _ => none

/-- The commands on one line. -/
def simpleCmd (lib : Library) (fuel : Nat) (name : Text) (tokens : List Token) : Option (Inst × List Token) :=
  if name = "return".toList then do
    let (a1, rest) ← termThen lib fuel (.char ';') tokens
    return (.return a1, rest)
  else if name = "preference".toList then do
    let ((), rest) ← take (.char '=') tokens
    let (a1, rest) ← termThen lib fuel (.char ';') rest
    return (.prefSet a1, rest)
  else if name = "unset".toList then
    match tokens with
    | .char '(' :: .word name :: .char ')' :: .char ';' :: rest => (dynamicAttr name).map (.eaUnset ·, rest)
    | _ => none
  else
    match breakCommand name, dynamicAttr name with
    | some code, _ => do
        let (a1, rest) ← printList lib fuel tokens
        let ((), rest) ← take (.char ';') rest
        return (.printAndDie a1 code, rest)
    | none, some code => attrCommand lib fuel code tokens
    | none, none => none

mutual

def cmd (lib : Library) : Nat → Parser Inst
  | 0, _ => none
  | fuel + 1, .word name :: rest =>
      if name = "if".toList then do
        let (a1, rest) ← termThen lib fuel (keyword "then") rest
        let (a2, rest) ← block lib fuel rest
        match rest with
        | .word name :: others =>
            if name = "else".toList then do
              let (a3, rest) ← block lib fuel others
              return (.condition (.condition a1 a2) a3, rest)
            else some (.condition a1 a2, rest)
        | rest => some (.condition a1 a2, rest)
      else simpleCmd lib fuel name rest
  | _ + 1, _ => none

def block (lib : Library) : Nat → Parser (List Inst)
  | 0, _ => none
  | fuel + 1, .char '\x7b' :: rest => do
      let (a1, rest) ← cmds lib fuel rest
      let ((), rest) ← take (.char '\x7d') rest
      return (a1, rest)
  | fuel + 1, tokens => do
      let (a1, rest) ← cmd lib fuel tokens
      return ([a1], rest)

/-- Commands up to a closing brace, or to the end. -/
def cmds (lib : Library) : Nat → Parser (List Inst)
  | 0, _ => none
  | _ + 1, [] => some ([], [])
  | _ + 1, .char '\x7d' :: rest => some ([], .char '\x7d' :: rest)
  | fuel + 1, tokens => do
      let (a1, rest) ← cmd lib fuel tokens
      let (others, rest) ← cmds lib fuel rest
      return (a1 :: others, rest)

end

/-- No parser calls itself more often without taking a token. -/
def depth (tokens : List Token) : Nat := 8 * (tokens.length + 1)

/-- The commands of a filter from their text. -/
def parse (lib : Library) (text : Text) : Option (List Inst) := do
  let tokens ← lex lib text
  match cmds lib (depth tokens) tokens with
  | some (root, []) => some root
  | _ => none

end Commands

section Reading

variable {lib : Library} {text : Text} {root : List Inst}

/-- The text stands for these commands, also behind others: a command before it does not go on with it. -/
def Reads (lib : Library) (text : Text) (root : List Inst) : Prop :=
  ∃ tokens, lex lib text = some tokens ∧ tokens.head? ≠ some (keyword "else") ∧
    ∀ fuel, depth tokens ≤ fuel → cmds lib fuel tokens = some (root, [])

theorem Reads.parse (reads : Reads lib text root) : parse lib text = some root := by
  obtain ⟨tokens, scanned, _, commands⟩ := reads
  simp only [Filter.parse, scanned, Option.bind_eq_bind, Option.bind_some, commands _ (Nat.le_refl _)]

theorem reads_nil (lib : Library) : Reads lib [] [] := by
  refine ⟨[], rfl, nofun, fun fuel enough => ?_⟩
  obtain ⟨less, rfl⟩ : ∃ less, fuel = less + 1 := ⟨fuel - 1, by rw [depth] at enough; omega⟩
  rfl

theorem Reads.cons {front : Text} {tokens : List Token} {what : Inst} (reads : Reads lib text root)
    (scanned : lex lib (front ++ text) = (lex lib text).map (tokens ++ ·)) (starts : ∃ name ∈ tokens.head?, name ≠ keyword "else" ∧
      name ≠ .char '\x7d')
    (taken : ∀ fuel rest, 8 * tokens.length ≤ fuel → rest.head? ≠ some (keyword "else") →
      cmd lib fuel (tokens ++ rest) = some (what, rest)) : Reads lib (front ++ text) (what :: root) := by
  obtain ⟨rest, also, notElse, commands⟩ := reads
  obtain ⟨name, first, other, open_⟩ := starts
  obtain ⟨others, rfl⟩ : ∃ others, tokens = name :: others := by
    cases tokens with
    | nil => cases first
    | cons head others => exact ⟨others, by rw [Option.some.inj first]⟩
  refine ⟨name :: others ++ rest, by rw [scanned, also, Option.map_some], fun same => other (Option.some.inj same),
    fun fuel enough => ?_⟩
  obtain ⟨less, rfl⟩ : ∃ less, fuel = less + 1 := ⟨fuel - 1, by rw [depth] at enough; omega⟩
  have long : 8 * (name :: others).length ≤ less ∧ depth rest ≤ less := by
    simp only [depth, List.length_append, List.length_cons] at enough ⊢
    omega
  have first := taken less rest long.1 notElse
  rw [List.cons_append] at first ⊢
  rw [cmds, first]
  · simp only [Option.bind_eq_bind, Option.bind_some, commands less long.2]
    rfl
  · exact nofun
  · rintro more same
    exact open_ (List.cons.inj same).1

end Reading

end ActiveBgp.Bird.Filter

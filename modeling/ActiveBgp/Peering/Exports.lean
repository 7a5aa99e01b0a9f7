import ActiveBgp.Bird.FilterGrammar
import ActiveBgp.Peering.Filters

namespace ActiveBgp.Peering.Exports

open ActiveBgp.Python ActiveBgp.Shell ActiveBgp.Bird ActiveBgp.Bird.Filter ActiveBgp.Bird.SetAttribute
  ActiveBgp.Data.Lexing.Pattern ActiveBgp.Peering.PeeringPrefix

/-! # What BIRD exports

The files of `peering-prefix` are commands of BIRD's filters.  BIRD reads such a file as
one command, which exports the announced prefix with the path and the communities of the
announcement, and leaves other routes to what comes behind it.
-/

section Announcements

/-- A decimal number of 32 bits. -/
structure Numeral where
  digits : Text
  value : Nat
  written : unsigned? digits = some value
  small : value < 4294967296

namespace Numeral

def word (number : Numeral) : UInt32 := UInt32.ofNat number.value

theorem digits_ne_nil (number : Numeral) : number.digits ≠ [] := (unsigned?_spec number.written).1

theorem isDigit (number : Numeral) : ∀ char ∈ number.digits, char.isDigit = true := (unsigned?_spec number.written).2

theorem value_eq (number : Numeral) : Nat.ofDigitChars 10 number.digits 0 = number.value := by
  have written := number.written
  rw [unsigned?, if_pos ⟨number.digits_ne_nil, List.all_eq_true.mpr number.isDigit⟩] at written
  exact Option.some.inj written

theorem head_isDigit (number : Numeral) (rest : Text) : ∀ x ∈ (number.digits ++ rest).head?, x.isDigit = true := by
  obtain ⟨first, others, digits⟩ := List.exists_cons_of_ne_nil number.digits_ne_nil
  have all := number.isDigit
  rw [digits] at all ⊢
  rintro x ⟨⟩
  exact all _ List.mem_cons_self

end Numeral

/-- A network as BIRD for IPv4 accepts it. -/
structure Network (lib : Library) where
  address : Text
  ip : IpAddr
  len : Numeral
  isAddress : address ∈ dotted.language
  pton : lib.ip4Pton address = some ip
  short : len.value ≤ 32
  isPrefix : lib.ipIsPrefix ip len.value = true

def Network.text {lib : Library} (net : Network lib) : Text := net.address ++ '/' :: net.len.digits

structure CommunityText where
  asn : Numeral
  val : Numeral
  asnSmall : asn.value ≤ 65535
  valSmall : val.value ≤ 65535

namespace CommunityText

def text (community : CommunityText) : Text := community.asn.digits ++ ',' :: community.val.digits

def value (community : CommunityText) : Community := community.asn.word <<< 16 ||| community.val.word

theorem short (community : CommunityText) : ¬ (community.asn.word > 0xFFFF ∨ community.val.word > 0xFFFF) := by
  have bound {number : Numeral} (small : number.value ≤ 65535) : ¬ number.word > 0xFFFF := by
    rw [UInt32.not_lt, UInt32.le_iff_toNat_le, Numeral.word, UInt32.toNat_ofNat_of_lt' number.small]
    exact small
  exact not_or.mpr ⟨bound community.asnSmall, bound community.valSmall⟩

end CommunityText

/-- What is announced to a mux: the numbers are prepended one after the other. -/
structure Announced (lib : Library) where
  net : Network lib
  prepends : List Numeral
  communities : List CommunityText

variable {lib : Library}

/-- The file of the announcement. -/
def Announced.text (announced : Announced lib) : Text :=
  fileText (guardLine announced.net.text :: (announced.prepends.map (fun number => pathPrepend number.digits) ++
    announced.communities.map (fun community => communityAdd community.text) ++ ["    accept;".toList, "\x7d".toList]))

end Announcements

section Tokens

variable {lib : Library} {rest : Text}

/-- The tokens of a line with one operation on an attribute. -/
def operationTokens (attr operation : String) (argument : List Token) : List Token :=
  [keyword attr, .char '.', keyword operation, .char '('] ++ argument ++ [.char ')', .char ';']

def prependTokens (number : Numeral) : List Token := operationTokens "bgp_path" "prepend" [.num number.word]

def communityTokens (community : CommunityText) : List Token :=
  operationTokens "bgp_community" "add"
    [.char '(', .num community.asn.word, .char ',', .num community.val.word, .char ')']

def guardTokens (net : Network lib) : List Token :=
  [keyword "if", .char '(', keyword "net", .char '=', .ipa net.ip, .char '/', .num net.len.word, .char ')', keyword "then",
    .char '\x7b']

def acceptTokens : List Token := [keyword "accept", .char ';', .char '\x7d']

theorem lex_numeral (number : Numeral) (ends : ∀ x ∈ rest.head?, Ends x ∧ x ≠ '.') :
    lex lib (number.digits ++ rest) = (lex lib rest).map (.num number.word :: ·) := by
  have small : Nat.ofDigitChars 10 number.digits 0 < 4294967296 := number.value_eq ▸ number.small
  rw [lex_number number.digits_ne_nil number.isDigit small ends, number.value_eq]
  rfl

theorem lex_before_numeral {char : Char} (number : Numeral) (known : char ∈ ['(', ',', '/']) (listed : char ∈ punctuation) :
    lex lib (char :: (number.digits ++ rest)) = (lex lib (number.digits ++ rest)).map (.char char :: ·) :=
  lex_char listed fun x inside => apart_digit known (number.head_isDigit rest x inside)

theorem notBlank_digit {char : Char} (digit : char.isDigit = true) : white char = false := by
  rw [white, Bool.or_eq_false_iff, beq_eq_false_iff_ne, beq_eq_false_iff_ne]
  constructor <;> rintro rfl <;> exact absurd digit (by decide)

theorem lex_prepend (number : Numeral) (rest : Text) : lex lib (pathPrepend number.digits ++ '\n' :: rest) =
    (lex lib rest).map (prependTokens number ++ ·) := by
  have line : "    bgp_path.prepend(".toList = "    ".toList ++ 'b' :: ("gp_path".toList ++ '.' :: 'p' ::
      ("repend".toList ++ ['('])) := by decide
  have close : ");".toList = [')', ';'] := by decide
  unfold pathPrepend
  rw [line, close]
  simp only [List.append_assoc, List.cons_append, List.nil_append]
  rw [lex_blank (by decide) (by decide) (by rintro x ⟨⟩; decide), lex_word (by decide) (by decide) (by rintro x ⟨⟩; decide),
    lex_char (by decide) (by rintro x ⟨⟩; decide), lex_word (by decide) (by decide) (by rintro x ⟨⟩; decide),
    lex_before_numeral number (by decide) (by decide), lex_numeral number (by rintro x ⟨⟩; decide),
    lex_char (by decide) (by rintro x ⟨⟩; decide), lex_char (by decide) (by rintro x ⟨⟩; decide), lex_newline]
  simp only [Option.map_map]
  rfl

theorem lex_community (community : CommunityText) (rest : Text) :
    lex lib (communityAdd community.text ++ '\n' :: rest) = (lex lib rest).map (communityTokens community ++ ·) := by
  have line : "    bgp_community.add((".toList = "    ".toList ++ 'b' :: ("gp_community".toList ++ '.' :: 'a' ::
      ("dd".toList ++ ['(', '('])) := by decide
  have close : "));".toList = [')', ')', ';'] := by decide
  unfold communityAdd CommunityText.text
  rw [line, close]
  simp only [List.append_assoc, List.cons_append, List.nil_append]
  rw [lex_blank (by decide) (by decide) (by rintro x ⟨⟩; decide), lex_word (by decide) (by decide) (by rintro x ⟨⟩; decide),
    lex_char (by decide) (by rintro x ⟨⟩; decide), lex_word (by decide) (by decide) (by rintro x ⟨⟩; decide),
    lex_char (by decide) (by rintro x ⟨⟩; decide),
    lex_before_numeral community.asn (by decide) (by decide), lex_numeral community.asn (by rintro x ⟨⟩; decide),
    lex_before_numeral community.val (by decide) (by decide), lex_numeral community.val (by rintro x ⟨⟩; decide),
    lex_char (by decide) (by rintro x ⟨⟩; decide), lex_char (by decide) (by rintro x ⟨⟩; decide),
    lex_char (by decide) (by rintro x ⟨⟩; decide), lex_newline]
  simp only [Option.map_map]
  rfl

theorem lex_guard (net : Network lib) (rest : Text) :
    lex lib (guardLine net.text ++ '\n' :: rest) = (lex lib rest).map (guardTokens net ++ ·) := by
  have line : "if ( net = ".toList = 'i' :: ("f".toList ++ (" ".toList ++ '(' :: (" ".toList ++ 'n' :: ("et".toList ++
      (" ".toList ++ '=' :: " ".toList))))) := by decide
  have close : " ) then \x7b".toList = " ".toList ++ ')' :: (" ".toList ++ 't' :: ("hen".toList ++ (" ".toList ++ ['\x7b']))) := by
    decide
  have first : ∀ rest, ∀ x ∈ (net.address ++ rest).head?, white x = false := by
    obtain ⟨first, others, same, digit⟩ := dotted_cons net.isAddress
    rw [same]
    rintro rest x ⟨⟩
    exact notBlank_digit digit
  unfold guardLine Network.text
  rw [line, close]
  simp only [List.append_assoc, List.cons_append, List.nil_append]
  rw [lex_word (by decide) (by decide) (by rintro x ⟨⟩; decide), lex_blank (by decide) (by decide) (by rintro x ⟨⟩; decide),
    lex_char (by decide) (by rintro x ⟨⟩; decide), lex_blank (by decide) (by decide) (by rintro x ⟨⟩; decide),
    lex_word (by decide) (by decide) (by rintro x ⟨⟩; decide), lex_blank (by decide) (by decide) (by rintro x ⟨⟩; decide),
    lex_char (by decide) (by rintro x ⟨⟩; decide), lex_blank (by decide) (by decide) (first _),
    lex_ip4 net.isAddress net.pton (by rintro x ⟨⟩; decide), lex_before_numeral net.len (by decide) (by decide),
    lex_numeral net.len (by rintro x ⟨⟩; decide), lex_blank (by decide) (by decide) (by rintro x ⟨⟩; decide),
    lex_char (by decide) (by rintro x ⟨⟩; decide), lex_blank (by decide) (by decide) (by rintro x ⟨⟩; decide),
    lex_word (by decide) (by decide) (by rintro x ⟨⟩; decide), lex_blank (by decide) (by decide) (by rintro x ⟨⟩; decide),
    lex_char (by decide) (by rintro x ⟨⟩; decide), lex_newline]
  simp only [Option.map_map]
  rfl

theorem lex_accept (rest : Text) : lex lib ("    accept;".toList ++ '\n' :: ("\x7d".toList ++ '\n' :: rest)) =
    (lex lib rest).map (acceptTokens ++ ·) := by
  have line : "    accept;".toList = "    ".toList ++ 'a' :: ("ccept".toList ++ [';']) := by decide
  have close : "\x7d".toList = ['\x7d'] := by decide
  rw [line, close]
  simp only [List.append_assoc, List.cons_append, List.nil_append]
  rw [lex_blank (by decide) (by decide) (by rintro x ⟨⟩; decide), lex_word (by decide) (by decide) (by rintro x ⟨⟩; decide),
    lex_char (by decide) (by rintro x ⟨⟩; decide), lex_newline, lex_char (by decide) (by rintro x ⟨⟩; decide), lex_newline]
  simp only [Option.map_map]
  rfl

theorem lex_lines {α : Type} {line : α → Text} {tokens : α → List Token}
    (each : ∀ item rest, lex lib (line item ++ '\n' :: rest) = (lex lib rest).map (tokens item ++ ·)) (items : List α)
    (rest : Text) : lex lib (fileText (items.map line) ++ rest) = (lex lib rest).map (items.flatMap tokens ++ ·) := by
  induction items with
  | nil => simp [fileText]
  | cons item others ih =>
      have split : fileText ((item :: others).map line) ++ rest = line item ++ '\n' :: (fileText (others.map line) ++ rest) := by
        simp [fileText]
      rw [split, each, ih, Option.map_map]
      simp [Function.comp_def]

def Announced.bodyTokens (announced : Announced lib) : List Token :=
  announced.prepends.flatMap prependTokens ++ (announced.communities.flatMap communityTokens ++ acceptTokens)

theorem lex_announced (announced : Announced lib) (rest : Text) : lex lib (announced.text ++ rest) =
    (lex lib rest).map (guardTokens announced.net ++ announced.bodyTokens ++ ·) := by
  have split : announced.text ++ rest = guardLine announced.net.text ++ '\n' ::
      (fileText (announced.prepends.map fun number => pathPrepend number.digits) ++
        (fileText (announced.communities.map fun community => communityAdd community.text) ++
          ("    accept;".toList ++ '\n' :: ("\x7d".toList ++ '\n' :: rest)))) := by
    simp [Announced.text, fileText]
  rw [split, lex_guard, lex_lines lex_prepend, lex_lines lex_community, lex_accept]
  simp [Announced.bodyTokens, Function.comp_def]

end Tokens

section Commands

variable {lib : Library}

def prependCmd (number : Numeral) : Inst := fGenerateComplex .pathPrepend .bgpPath (.constant ⟨.int number.word, rfl⟩)

def communityCmd (community : CommunityText) : Inst :=
  fGenerateComplex (.clistAddDel .add) .bgpCommunity (.constant ⟨.pair community.value, rfl⟩)

def Announced.body (announced : Announced lib) : List Inst :=
  announced.prepends.map prependCmd ++ (announced.communities.map communityCmd ++ [.printAndDie [] .accept])

def Network.guard (net : Network lib) : Inst :=
  .binary .eq .rtaGetNet (.constant ⟨.px net.ip net.len.word.toNat, rfl⟩)

def Announced.inst (announced : Announced lib) : Inst := .condition announced.net.guard announced.body

theorem cmd_prepend (number : Numeral) (fuel : Nat) (rest : List Token) :
    cmd lib (fuel + 20) (prependTokens number ++ rest) = some (prependCmd number, rest) := rfl

theorem term_operand {fuel : Nat} {tokens rest : List Token} {what : Inst} {token : Token} (last : operator token = none)
    (noPoint : token ≠ .char '.') (taken : operand lib (fuel + 1) tokens = some (what, token :: rest))
    (notNegated : tokens.head? ≠ some (.char '!')) (min : Nat) :
    term lib (fuel + 3) min tokens = some (what, token :: rest) := by
  have plain : properties lib (fuel + 1) what (token :: rest) = some (what, token :: rest) := by
    rw [properties]
    rintro name others ⟨⟩
    exact noPoint rfl
  have single : negation lib (fuel + 2) tokens = some (what, token :: rest) := by
    rw [negation]
    · simp only [taken, plain, Option.bind_eq_bind, Option.bind_some]
    · rintro others rfl
      exact notNegated rfl
  rw [term, single]
  simp only [Option.bind_eq_bind, Option.bind_some, operators, List.head?_cons, last]

theorem cmd_community (community : CommunityText) (fuel : Nat) (rest : List Token) :
    cmd lib (fuel + 20) (communityTokens community ++ rest) = some (communityCmd community, rest) := by
  have pair : pairConstruct (.int community.asn.word) (.int community.val.word) = .ok (.pair community.value) :=
    if_neg community.short
  have taken : operand lib (fuel + 17) (.char '(' :: .num community.asn.word :: .char ',' :: .num community.val.word ::
      .char ')' :: .char ')' :: .char ';' :: rest) = some (.constant ⟨.pair community.value, rfl⟩, .char ')' :: .char ';' :: rest) := by
    show (fold (pairConstruct _ _)).map _ = _
    rw [pair]
    rfl
  have whole := term_operand rfl (by decide) taken nofun 0
  show Option.bind (Option.bind (term lib (fuel + 16 + 3) 0 (.char '(' :: .num community.asn.word :: .char ',' ::
    .num community.val.word :: .char ')' :: .char ')' :: .char ';' :: rest)) _) _ = _
  rw [whole]
  rfl

theorem term_guard (net : Network lib) (fuel : Nat) (rest : List Token) :
    term lib (fuel + 20) 0 (.char '(' :: keyword "net" :: .char '=' :: .ipa net.ip :: .char '/' :: .num net.len.word ::
      .char ')' :: keyword "then" :: rest) = some (net.guard, keyword "then" :: rest) := by
  have toNat : net.len.word.toNat = net.len.value := UInt32.toNat_ofNat_of_lt' net.len.small
  have masked : net.len.word ≤ 32 ∧ lib.ipIsPrefix net.ip net.len.word.toNat = true := by
    rw [toNat, UInt32.le_iff_toNat_le, toNat]
    exact ⟨net.short, net.isPrefix⟩
  have written (fuel : Nat) (rest : List Token) : operand lib (fuel + 1) (.ipa net.ip :: .char '/' :: .num net.len.word :: rest) =
      some (.constant ⟨.px net.ip net.len.word.toNat, rfl⟩, rest) := if_pos masked
  have right (fuel : Nat) := term_operand rfl (by decide) (written fuel (.char ')' :: keyword "then" :: rest)) nofun 3
  have inner : term lib (fuel + 17) 0 (keyword "net" :: .char '=' :: .ipa net.ip :: .char '/' :: .num net.len.word ::
      .char ')' :: keyword "then" :: rest) = some (net.guard, .char ')' :: keyword "then" :: rest) := by
    show Option.bind (term lib (fuel + 12 + 3) 3 (.ipa net.ip :: .char '/' :: .num net.len.word :: .char ')' :: keyword "then" ::
      rest)) _ = _
    rw [right]
    rfl
  have outer : operand lib (fuel + 18) (.char '(' :: keyword "net" :: .char '=' :: .ipa net.ip :: .char '/' ::
      .num net.len.word :: .char ')' :: keyword "then" :: rest) = some (net.guard, keyword "then" :: rest) := by
    show Option.bind (term lib (fuel + 17) 0 (keyword "net" :: .char '=' :: .ipa net.ip :: .char '/' :: .num net.len.word ::
      .char ')' :: keyword "then" :: rest)) _ = _
    rw [inner]
    rfl
  exact term_operand rfl (by decide) outer nofun 0

theorem cmds_cons {fuel : Nat} {name : Text} {others rest : List Token} {what : Inst}
    (taken : cmd lib fuel (.word name :: others ++ rest) = some (what, rest)) :
    cmds lib (fuel + 1) (.word name :: others ++ rest) = (cmds lib fuel rest).map fun found => (what :: found.1, found.2) := by
  rw [List.cons_append] at taken ⊢
  rw [cmds, taken]
  · cases found : cmds lib fuel rest <;> simp [found]
  all_goals simp

theorem cmds_items {α : Type} {tokens : α → List Token} {command : α → Inst}
    (each : ∀ item fuel rest, cmd lib (fuel + 20) (tokens item ++ rest) = some (command item, rest))
    (starts : ∀ item, ∃ name others, tokens item = .word name :: others) {behind rest : List Token} {root : List Inst}
    {enough : Nat} (closing : ∀ fuel, enough + 20 ≤ fuel → cmds lib fuel behind = some (root, rest)) (items : List α)
    {fuel : Nat} (long : enough + 20 + items.length ≤ fuel) :
    cmds lib fuel (items.flatMap tokens ++ behind) = some (items.map command ++ root, rest) := by
  induction items generalizing fuel with
  | nil => exact closing fuel long
  | cons item others ih =>
      rw [List.length_cons] at long
      obtain ⟨less, rfl⟩ : ∃ less, fuel = less + 20 + 1 := ⟨fuel - 21, by omega⟩
      obtain ⟨name, tail, same⟩ := starts item
      have first := each item less (others.flatMap tokens ++ behind)
      rw [List.flatMap_cons, List.append_assoc, same]
      rw [same] at first
      rw [cmds_cons first, ih (by omega)]
      rfl

theorem cmds_body (announced : Announced lib) (rest : List Token) {fuel : Nat}
    (long : 22 + announced.prepends.length + announced.communities.length ≤ fuel) :
    cmds lib fuel (announced.bodyTokens ++ rest) = some (announced.body, .char '\x7d' :: rest) := by
  have last (fuel : Nat) (long : 22 ≤ fuel) :
      cmds lib fuel (acceptTokens ++ rest) = some ([.printAndDie [] .accept], .char '\x7d' :: rest) := by
    obtain ⟨less, rfl⟩ : ∃ less, fuel = less + 22 := ⟨fuel - 22, by omega⟩
    rfl
  rw [Announced.bodyTokens, List.append_assoc, List.append_assoc]
  have marks (fuel : Nat) (long : 2 + announced.communities.length + 20 ≤ fuel) :
      cmds lib fuel (announced.communities.flatMap communityTokens ++ (acceptTokens ++ rest)) =
        some (announced.communities.map communityCmd ++ [.printAndDie [] .accept], .char '\x7d' :: rest) :=
    cmds_items cmd_community (fun _ => ⟨_, _, rfl⟩) last announced.communities (by omega)
  exact cmds_items cmd_prepend (fun _ => ⟨_, _, rfl⟩) marks announced.prepends (by omega)

/-- What follows a command with a condition may be `else`, which belongs to it. -/
def withElse (lib : Library) (fuel : Nat) (condition : Inst) : Parser Inst
  | .word name :: others =>
      if name = "else".toList then (block lib fuel others).bind fun found => some (.condition condition found.1, found.2)
      else some (condition, .word name :: others)
  | rest => some (condition, rest)

theorem withElse_eq {rest : List Token} (notElse : rest.head? ≠ some (keyword "else")) (fuel : Nat) (condition : Inst) :
    withElse lib fuel condition rest = some (condition, rest) := by
  cases rest with
  | nil => rfl
  | cons first others =>
      cases first with
      | word name => exact if_neg fun same => notElse (congrArg (fun name => some (Token.word name)) same)
      | _ => rfl

theorem cmd_guarded (net : Network lib) {inside rest : List Token} {body : List Inst} {less : Nat}
    (taken : cmds lib (less + 19) (inside ++ rest) = some (body, .char '\x7d' :: rest)) :
    cmd lib (less + 21) (guardTokens net ++ (inside ++ rest)) = withElse lib (less + 20) (.condition net.guard body) rest := by
  have condition := term_guard net less (.char '\x7b' :: (inside ++ rest))
  show Option.bind (Option.bind (term lib (less + 20) 0 (.char '(' :: keyword "net" :: .char '=' :: .ipa net.ip ::
    .char '/' :: .num net.len.word :: .char ')' :: keyword "then" :: .char '\x7b' :: (inside ++ rest))) _) _ = _
  rw [condition]
  show Option.bind (Option.bind (cmds lib (less + 19) (inside ++ rest)) _) _ = _
  rw [taken]
  cases rest with
  | nil => rfl
  | cons first others => cases first <;> rfl

/-- The tokens of an announcement are one command; what comes behind it is not `else`. -/
theorem cmd_announced (announced : Announced lib) {rest : List Token} (notElse : rest.head? ≠ some (keyword "else")) {fuel : Nat}
    (long : 8 * (guardTokens announced.net ++ announced.bodyTokens).length ≤ fuel) :
    cmd lib fuel (guardTokens announced.net ++ announced.bodyTokens ++ rest) = some (announced.inst, rest) := by
  have lengths : (guardTokens announced.net ++ announced.bodyTokens).length =
      13 + 7 * announced.prepends.length + 11 * announced.communities.length := by
    simp [guardTokens, Announced.bodyTokens, prependTokens, communityTokens, operationTokens, acceptTokens, List.length_flatMap]
    omega
  obtain ⟨less, rfl⟩ : ∃ less, fuel = less + 21 := ⟨fuel - 21, by omega⟩
  rw [List.append_assoc, cmd_guarded announced.net (cmds_body announced rest (by omega))]
  exact withElse_eq notElse _ _

theorem Announced.reads (announced : Announced lib) {text : Text} {closing : List Inst} (reads : Reads lib text closing) :
    Reads lib (announced.text ++ text) (announced.inst :: closing) :=
  reads.cons (lex_announced announced text) ⟨_, rfl, by decide, by decide⟩ fun _ _ long notElse => cmd_announced announced notElse long

end Commands

end ActiveBgp.Peering.Exports

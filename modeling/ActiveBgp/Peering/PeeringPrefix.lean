import ActiveBgp.Shell.Bash
import ActiveBgp.Data.Search

namespace ActiveBgp.Peering.PeeringPrefix

open ActiveBgp.Python ActiveBgp.Shell ActiveBgp.Data.Exploration

/-- The variables of the script, and the files that it writes. -/
structure Variables where
  mux : Text := "all".toList
  poisons : Text := []
  prepend : Text := "0".toList
  origin : Text := "0".toList
  communities : List Text := []
  fullCommunities : List Text := []
  files : Files

/-- A script that is left early has an exit status. -/
abbrev Script := EStateM Nat Variables

/-- What the scripts find on the machine.  The devices of the muxes and the configured
prefixes are read from files, of which the last two may be missing.  `glob`, `evaluate`,
`test` and `seq` say what bash makes of patterns and of texts that are not numbers.  An
expression can change the variables, and has no value where it is invalid; a variable in
it that is not bound ends the script. -/
structure Host where
  progdir : Text
  root : Bool
  mux2dev : Dict Text Text
  prefixDb : Option (List Text)
  prefix6Db : Option (List Text)
  glob : Files → Text → List Text
  evaluate : Text → Script (Option Int)
  test : Files → List Text → Bool
  seq : List Text → Nat
  birdc : Nat
  otherScript : Text → List Text → Nat

def die : Script Unit := throw 1

def usage : Script Unit := throw 0

def exit (status : Nat) : Script Unit := if status = 0 then pure () else throw status

/-- `for item in items` -/
def forEach {α : Type} (body : α → Script Unit) : List α → Script Unit
  | [] => pure ()
  | item :: rest => do
      body item
      forEach body rest

/-- The value of a text in `[[ ]]`, where it is an arithmetic expression. -/
def arithmetic (host : Host) (text : Text) : Script (Option Int) :=
  match constant? text with
  | some value => pure (some value)
  | none => host.evaluate text

def satisfies (host : Host) (text : Text) (condition : Int → Bool) : Script Bool := do
  return (← arithmetic host text).any condition

/-- `[ $text operator 0 ]`, where the text is split into words. -/
def testZero (host : Host) (files : Files) (operator : Text) (condition : Int → Bool) (text : Text) : Bool :=
  match words (host.glob files) text with
  | [word] => (integer? word).any condition
  | operands => host.test files (operands ++ [operator, "0".toList])

def isZero (host : Host) (files : Files) (text : Text) : Bool := testZero host files "-eq".toList (· = 0) text

def isNonzero (host : Host) (files : Files) (text : Text) : Bool := testZero host files "-ne".toList (· ≠ 0) text

/-- The number of lines of `seq 1 $text`. -/
def seqLength (host : Host) (files : Files) (text : Text) : Nat :=
  match words (host.glob files) text with
  | [word] => match integer? word with
    | some value => value.toNat
    | none => host.seq [word]
  | operands => host.seq operands

/-- `if [[ condition ]] ; then die` -/
def dieIf (condition : Script Bool) : Script Unit := do
  if ← condition then die

def checkCommunity (host : Host) (comm : Text) : Script Unit := do
  dieIf (satisfies host comm (· > 65535))
  dieIf (satisfies host comm (· < 0))

/-- `$(echo "$OPTARG" | tr "," "\n")` -/
def commasToLines (optarg : Text) : Text := optarg.map fun char => if char = ',' then '\n' else char

/-- `case $opt in` -/
def setOption (host : Host) (option : Char × Text) : Script Unit :=
  let optarg := option.2
  match option.1 with
  | 'm' => modify fun vars => { vars with mux := optarg }
  | 'p' => modify fun vars => { vars with poisons := optarg }
  | 'P' => modify fun vars => { vars with prepend := optarg }
  | 'o' => modify fun vars => { vars with origin := optarg }
  | 'c' => do
      checkCommunity host optarg
      modify fun vars => { vars with communities := vars.communities ++ words (host.glob vars.files) optarg }
  | 'C' => do
      forEach (checkCommunity host) (words (host.glob (← get).files) (commasToLines optarg))
      modify fun vars => { vars with fullCommunities := vars.fullCommunities ++ words (host.glob vars.files) optarg }
  | _ => usage

def replaceFirst (old new : Char) : Text → Text
  | [] => []
  | char :: rest => if char = old then new :: rest else char :: replaceFirst old new rest

def prefixfn (routePrefix : Text) : Text :=
  let name := replaceFirst '/' '-' routePrefix
  if ':' ∈ routePrefix then name.map fun char => if char = ':' then 'i' else char else name

def birdCfgs (host : Host) (routePrefix : Text) : Text :=
  host.progdir ++ if ':' ∈ routePrefix then "/configs/bird6".toList else "/configs/bird".toList

def filterfn (host : Host) (routePrefix mux : Text) : Text :=
  birdCfgs host routePrefix ++ ("/prefix-filters/export_".toList ++ mux ++ "_".toList ++ prefixfn routePrefix ++
    ".conf".toList)

def routefn (host : Host) (routePrefix : Text) : Text :=
  birdCfgs host routePrefix ++ ("/route-announcements/".toList ++ prefixfn routePrefix)

def echo (file line : Text) : Script Unit := modify fun vars => { vars with files := append file line vars.files }

def pathPrepend (asn : Text) : Text := "    bgp_path.prepend(".toList ++ asn ++ ");".toList

def communityAdd (comm : Text) : Text := "    bgp_community.add((".toList ++ comm ++ "));".toList

/-- The part of `do_announce` that changes the path. -/
def writePath (host : Host) (file : Text) : Script Unit := do
  let vars ← get
  if vars.poisons ≠ [] then
    if isNonzero host vars.files vars.prepend then die
    else if isNonzero host vars.files vars.origin then die
    else
      echo file (pathPrepend "47065".toList)
      forEach (fun val => echo file (pathPrepend val)) (words (host.glob (← get).files) vars.poisons)
  else if isNonzero host vars.files vars.prepend then
    modify fun vars => if isZero host vars.files vars.origin then { vars with origin := "47065".toList } else vars
    let origin := (← get).origin
    forEach (fun origin => echo file (pathPrepend origin)) (List.replicate (seqLength host vars.files vars.prepend) origin)

/-- `${communities[@]:-undef} != undef` -/
def isDefined (communities : List Text) : Bool := " ".toList.intercalate communities ∉ [[], "undef".toList]

def addCommunities (file : Text) (line : Text → Text) (communities : List Text) : Script Unit :=
  if isDefined communities then forEach (fun comm => echo file (line comm)) communities else pure ()

def writeCommunities (file : Text) : Script Unit := do
  let vars ← get
  addCommunities file (fun comm => communityAdd ("47065,".toList ++ comm)) vars.communities
  addCommunities file communityAdd vars.fullCommunities

def doAnnounce (host : Host) (routePrefix mux : Text) : Script Unit := do
  let file := filterfn host routePrefix mux
  modify fun vars => { vars with
    files := overwrite file ("if ( net = ".toList ++ routePrefix ++ " ) then \x7b".toList) vars.files }
  modify fun vars =>
    if isZero host vars.files vars.prepend ∧ isNonzero host vars.files vars.origin then { vars with prepend := "1".toList }
    else vars
  writePath host file
  writeCommunities file
  echo file "    accept;".toList
  echo file "\x7d".toList
  modify fun vars => { vars with
    files := overwrite (routefn host routePrefix) ("route ".toList ++ routePrefix ++ " unreachable;".toList) vars.files }

def withdraw (host : Host) (routePrefix mux : Text) : Script Unit :=
  modify fun vars => { vars with files := vars.files.erase (filterfn host routePrefix mux) }

/-- `${value:-unset}` -/
def orUnset : Option Text → Text
  | none | some [] => "unset".toList
  | some value => value

/-- The muxes that the script was asked for. -/
def muxes (host : Host) (mux : Text) : List Text := if mux = "all".toList then host.mux2dev.keys else [mux]

def checkValidAsn (host : Host) (asn : Text) : Script Unit := do
  if ← satisfies host asn (· ≠ 0) then
    if !asn.any Char.isDigit then die
    else dieIf (satisfies host asn (· < 1))

def checkPrepend (host : Host) : Script Unit := do
  dieIf (do satisfies host (← get).prepend (· < 0))
  dieIf (do satisfies host (← get).prepend (· > 3))

/-- Poisons cannot be combined with an origin or a number of prepends. -/
def checkPoisons (host : Host) : Script Unit := do
  if (← get).poisons ≠ [] then
    dieIf (do satisfies host (← get).origin (· ≠ 0))
    dieIf (do satisfies host (← get).prepend (· ≠ 0))

def checkMux (host : Host) (mux : Text) : Script Unit :=
  if mux ≠ "all".toList ∧ orUnset (host.mux2dev.get? mux) = "unset".toList then die else pure ()

/-- The checks between the options and the command. -/
def checkOptions (host : Host) : Script Unit := do
  checkMux host (← get).mux
  checkValidAsn host (← get).origin
  checkPrepend host
  checkPoisons host

def checkPrefix (host : Host) (routePrefix : Text) : Script Unit :=
  match host.prefixDb, host.prefix6Db with
  | some prefixes, some prefixes6 => if routePrefix ∈ prefixes ++ prefixes6 then pure () else die
  | _, _ => die

def subcommand (host : Host) (routePrefix subcmd : Text) : Script Unit := do
  let muxes := muxes host (← get).mux
  if subcmd = "announce".toList then
    forEach (doAnnounce host routePrefix) muxes
    exit host.birdc
  else if subcmd = "withdraw".toList then
    forEach (withdraw host routePrefix) muxes
    exit host.birdc
  else usage

def letters : List Char := ['m', 'p', 'P', 'o', 'c', 'C']

/-- `${!OPTIND:-unset}` -/
def operand (args : List Text) : Text := orUnset (getopts letters args).2.head?

/-- The script up to the command. -/
def prepare (host : Host) (args : List Text) : Script Unit := do
  if host.root = false then die
  forEach (setOption host) (getopts letters args).1
  checkOptions host
  checkPrefix host (operand args)

def peeringPrefix (host : Host) : List Text → Script Unit
  | subcmd :: argument :: args => do
      prepare host (argument :: args)
      subcommand host (operand (argument :: args)) subcmd
  | _ => usage

/-- The script `peering` calls one of the others. -/
def peering (host : Host) : List Text → Script Unit
  | [] => usage
  | command :: args =>
      if command = "prefix".toList then peeringPrefix host args
      else if command ∈ ["openvpn".toList, "bgp".toList, "bgp6".toList] then exit (host.otherScript command args)
      else usage

section Steps

variable {α : Type}

@[simp] theorem pure_apply (value : α) (vars : Variables) : (pure value : Script α) vars = .ok value vars := rfl

@[simp] theorem get_apply (vars : Variables) : (get : Script Variables) vars = .ok vars vars := rfl

@[simp] theorem modify_apply (change : Variables → Variables) (vars : Variables) :
    (modify change : Script PUnit) vars = .ok ⟨⟩ (change vars) := rfl

@[simp] theorem echo_apply (file line : Text) (vars : Variables) :
    echo file line vars = .ok ⟨⟩ { vars with files := append file line vars.files } := rfl

theorem forEach_cons (body : α → Script Unit) (item : α) (rest : List α) (vars : Variables) :
    forEach body (item :: rest) vars = match body item vars with
      | .ok _ after => forEach body rest after
      | .error status after => .error status after := by
  rw [forEach, bind_result]
  cases body item vars <;> rfl

end Steps

end ActiveBgp.Peering.PeeringPrefix

import ActiveBgp.Bird.Details
import ActiveBgp.Python.Lines

namespace ActiveBgp.Bird

open ActiveBgp.Python CachingBufferedLineReader

namespace Protocol

def headerLineFields : List Text :=
  ["name".toList, "proto".toList, "table".toList, "state".toList, "since".toList, "info".toList]

def supported : List Text := ["BGP".toList]

/-- `^(?P<name>\w+)\s+(?P<proto>\w+)\s+(?P<table>\w+)\s+(?P<state>\w+)\s+(?P<since>[0-9:-]+)\s*(?P<info>.*)$` -/
def summaryRe : Regex :=
  .line [.named "name" 1 isWord, .many 1 isSpace, .named "proto" 1 isWord, .many 1 isSpace, .named "table" 1 isWord,
    .many 1 isSpace, .named "state" 1 isWord, .many 1 isSpace, .named "since" 1 isSince, .many 0 isSpace,
    .named "info" 0 isInline]

/-- `^\s\s(?P<desc>[^:]+):(?P<data>.+)$` -/
def detailsRe : Regex := described (List.replicate 2 (.char isSpace)) [.named "data" 1 isInline]

/-- `^\s\s\s\s(?P<desc>[^:]+):(?P<data>.+)$` -/
def bgpDetailsRe : Regex := described (List.replicate 4 (.char isSpace)) [.named "data" 1 isInline]

/-- `^\s\s(?P<desc>\w+):\s+(?P<imported>\d+) imported, (?P<exported>\d+) exported(?:, (?P<preferred>\d+) preferred)?$` -/
def routesRe : Regex :=
  .line [.char isSpace, .char isSpace, .named "desc" 1 isWord, .literal [':'], .many 1 isSpace,
    .named "imported" 1 Char.isDigit, .literal " imported, ".toList, .named "exported" 1 Char.isDigit,
    .literal " exported".toList,
    .optional (.append (.literal ", ".toList) (.append (.named "preferred" 1 Char.isDigit) (.literal " preferred".toList)))]

/-- `^\s\sRoute change stats:\s+received\s+rejected\s+filtered\s+ignored\s+accepted$` -/
def statsRe : Regex :=
  .line [.char isSpace, .char isSpace, .literal "Route change stats:".toList, .many 1 isSpace, .literal "received".toList,
    .many 1 isSpace, .literal "rejected".toList, .many 1 isSpace, .literal "filtered".toList, .many 1 isSpace,
    .literal "ignored".toList, .many 1 isSpace, .literal "accepted".toList]

/-- `[\d-]` -/
def isCount (char : Char) : Bool := char.isDigit ∨ char = '-'

/-- The expression for updates, which is also the one for withdraws: `^\s\s\s\s(?P<desc>[\w ]+):\s+(?P<received>[\d-]+)\s+(?P<rejected>[\d-]+)\s+(?P<filtered>[\d-]+)\s+(?P<ignored>[\d-]+)\s+(?P<accepted>[\d-]+)$` -/
def countsRe : Regex :=
  .line [.char isSpace, .char isSpace, .char isSpace, .char isSpace, .named "desc" 1 fun char => isWord char ∨ char = ' ',
    .literal [':'], .many 1 isSpace, .named "received" 1 isCount, .many 1 isSpace, .named "rejected" 1 isCount,
    .many 1 isSpace, .named "filtered" 1 isCount, .many 1 isSpace, .named "ignored" 1 isCount, .many 1 isSpace,
    .named "accepted" 1 isCount]

/-- The value of a detail. -/
inductive Detail where
  | plain (value : Value)
  | routes (imported exported preferred : Int)
  | stats (counts : Dict Text Groups)
  | bgp (state : Text × Text) (details : Dict Text Value)

def parseStr (limit : Nat) : Reading (Text × Value) := do
  let (key, data) ← parseDescColonStr limit
  return (key, .str data)

def parseInt : Reading (Text × Value) := do
  let (key, data) ← parseDescColonInt
  return (key, .int data)

/-- The parser registered for a description. -/
def registered {ν : Type} (parsers : List (String × Reading (Text × ν))) (desc : Text) : Option (Reading (Text × ν)) :=
  (parsers.find? fun entry => entry.1.toList = desc).map Prod.snd

def bgpDetailsParsers (limit : Nat) : List (String × Reading (Text × Value)) :=
  [("BGP state", parseStr limit), ("Neighbor address", parseStr limit), ("Neighbor AS", parseInt),
    ("Neighbor ID", parseStr limit), ("Neighbor caps", parseStr limit), ("Session", parseStr limit),
    ("Source address", parseStr limit), ("Hold timer", parseStr limit), ("Keepalive timer", parseStr limit)]

/-- A pipe has no preferred routes: `int(None)` raises. -/
def parseProtoRoutes : Reading (Text × Detail) := do
  let line ← readline
  let m := routesRe.match? line
  let desc ← group m "desc"
  let imported ← int (← group m "imported")
  let exported ← int (← group m "exported")
  match m.bind (·.group "preferred".toList) with
  | none => throw (.raised .typeError)
  | some data =>
      let preferred ← int data
      return (normalizeDesc desc, .routes imported exported preferred)

def setDescValues (result : Dict Text Groups) (matched : Option Groups) : Reading (Dict Text Groups) := do
  let desc ← group matched "desc"
  return result.set (normalizeDesc desc) ((matched.getD []).filter fun entry => entry.1 ≠ "desc".toList)

def parseProtoRouteStats : Reading (Text × Detail) := do
  let line ← readline
  if (statsRe.match? line).isNone then
    throw (.assertion [])
  let line ← readline
  let counts ← setDescValues .empty (countsRe.match? line)
  let line ← readline
  let counts ← setDescValues counts (countsRe.match? line)
  let line ← readline
  let counts ← setDescValues counts (countsRe.match? line)
  let line ← readline
  let counts ← setDescValues counts (countsRe.match? line)
  return ("route_change_stats".toList, .stats counts)

def parseBgpState (limit : Nat) : Reading (Text × Detail) := do
  let state ← parseDescColonStr limit
  let details ← parseDescLines limit bgpDetailsRe (registered (bgpDetailsParsers limit)) none
  return ("bgp".toList, .bgp state details)

def plain (parser : Reading (Text × Value)) : Reading (Text × Detail) := do
  let (key, value) ← parser
  return (key, .plain value)

def detailsParsers (limit : Nat) : List (String × Reading (Text × Detail)) :=
  [("Description", plain (parseStr limit)), ("Preference", plain parseInt), ("Input filter", plain (parseStr limit)),
    ("Output filter", plain (parseStr limit)), ("Routes", parseProtoRoutes), ("Route change stats", parseProtoRouteStats),
    ("BGP state", parseBgpState limit)]

end Protocol

/-- A result of `show_protocols`. -/
structure Protocol where
  fields : Groups
  details : Dict Text Protocol.Detail

/-- `string.split()` -/
def words (string : Text) : List Text := (string.splitOnP isSpace).filter (· ≠ [])

/-- The loop of `show_protocols`, which stands at `line`. -/
def readProtocols (limit : Nat) : Nat → Text → List Protocol → Reading (List Protocol)
  | 0, _, _ => throw .outOfFuel
  | rounds + 1, line, results => do
      if line = [] then
        return results
      match Protocol.summaryRe.match? line with
      | none =>
          let line ← readline
          readProtocols limit rounds line results
      | some m =>
          let line ← readline
          let proto ← group (some m) "proto"
          if proto ∉ Protocol.supported then
            readProtocols limit rounds line results
          else
            let details ← parseDescLines limit Protocol.detailsRe (Protocol.registered (Protocol.detailsParsers limit)) none
            readProtocols limit rounds line (results ++ [⟨m, details⟩])

def showProtocols (limit : Nat) : Reading (List Protocol) := do
  let header ← readline
  if words header ≠ Protocol.headerLineFields then
    throw (.assertion [])
  let line ← readline
  readProtocols limit limit line []

end ActiveBgp.Bird

import ActiveBgp.Frrp.Traceroute

namespace ActiveBgp.Peering

open ActiveBgp.Python
open ActiveBgp.Frrp (Asn Hop originAsn TracedPath tracePath)

/-- Python's floats: which numbers are floats, what the average of some numbers is
rounded to, and how a float is printed and read. -/
structure Floats where
  isFloat : ℚ → Prop
  average : List ℚ → ℚ
  str : ℚ → Text
  float? : Text → Option ℚ
  isFloat_zero : isFloat 0
  isFloat_average : ∀ rtts, isFloat (average rtts)
  float?_str : ∀ rtt, isFloat rtt → float? (str rtt) = some rtt
  str_chars : ∀ rtt, isFloat rtt → ∀ char ∈ str rtt, char.isDigit = true ∨ char ∈ ['.', 'e', '+', '-']

/-- The address that is measured, which only a prefix with four octets has. -/
def prefixLoopback (routePrefix : Text) : Except PyError Text :=
  match ((routePrefix.splitOn '/').headD []).splitOn '.' with
  | [first, second, third, _] => .ok (".".toList.intercalate [first, second, third, ['1']])
  | _ => .error (.valueError "not four octets to unpack".toList)

def getAsnFromIp (routePrefix : Text) (dig : Text → Except PyError Text) (ip : Text) : Except PyError (Option Asn) := do
  let loopback ← prefixLoopback routePrefix
  if ip = loopback then return some 47065
  originAsn dig ip

/-- `get_traceroute_path`; `dig` answers the query for the address at a position. -/
def getTraceroutePath (floats : Floats) (routePrefix : Text) (dig : Nat → Text → Except PyError Text) (src : Asn)
    (result : List Hop) : Except PyError TracedPath :=
  tracePath floats.average (fun position => getAsnFromIp routePrefix (dig position)) src result

def getKvString (floats : Floats) (rtts : List (Asn × ℚ)) : List Text :=
  rtts.map fun entry => Text.ofInt entry.1 ++ '-' :: floats.str entry.2

end ActiveBgp.Peering

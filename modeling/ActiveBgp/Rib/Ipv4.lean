import ActiveBgp.Rib.Nlri

namespace ActiveBgp.Rib

open ActiveBgp.Python

namespace Ipv4

abbrev Address := Fin (2 ^ 32)

structure Network where
  address : Address
  prefixlen : Fin 33
  masked : address.val % 2 ^ (32 - prefixlen.val) = 0
deriving DecidableEq

def str (address : Address) : Text :=
  ".".toList.intercalate [Text.ofNat (address.val / 2 ^ 24), Text.ofNat (address.val / 2 ^ 16 % 256),
    Text.ofNat (address.val / 2 ^ 8 % 256), Text.ofNat (address.val % 256)]

/-- A decimal number without sign or leading zero, at most `bound`. -/
def decimal? (bound : Nat) (text : Text) : Option Nat :=
  let value := Nat.ofDigitChars 10 text 0
  if value ≤ bound ∧ text = Text.ofNat value then some value else none

def parse? (text : Text) : Option Address :=
  match (text.splitOn '.').map (decimal? 255) with
  | [some first, some second, some third, some fourth] =>
      some (Fin.ofNat _ (first * 2 ^ 24 + second * 2 ^ 16 + third * 2 ^ 8 + fourth))
  | _ => none

def address? : Value → Option Address
  | .int number => if 0 ≤ number ∧ number < 2 ^ 32 then some (Fin.ofNat _ number.toNat) else none
  | .str text => parse? text
  | .none => none

/-- `IPv4Network((address, prefixlen), strict=False)` -/
def mask (address : Address) (prefixlen : Fin 33) : Network where
  address := ⟨address.val - address.val % 2 ^ (32 - prefixlen.val), by omega⟩
  prefixlen := prefixlen
  masked := Nat.mod_eq_zero_of_dvd (Nat.dvd_sub_mod _)

/-- The same for plain numbers. -/
def maskNat (address prefixlen : Nat) : Network := mask (Fin.ofNat _ address) (Fin.ofNat _ prefixlen)

def network? (text : Text) : Option Network :=
  match text.splitOn '/' with
  | [host] => (parse? host).map fun address => mask address 32
  | [host, length] => do
      let address ← parse? host
      let prefixlen ← decimal? 32 length
      return mask address (Fin.ofNat _ prefixlen)
  | _ => none

theorem decimal?_ofNat {bound value : Nat} (small : value ≤ bound) :
    decimal? bound (Text.ofNat value) = some value := by
  have parsed : Nat.ofDigitChars 10 (Text.ofNat value) 0 = value := Nat.ofDigitChars_ten_toDigits
  simp [decimal?, parsed, small]

theorem not_mem_ofNat {char : Char} (notDigit : char.isDigit = false) (value : Nat) :
    char ∉ Text.ofNat value := by
  intro member
  simp [Text.isDigit_of_mem_ofNat member] at notDigit

theorem mem_str {char : Char} {address : Address} (member : char ∈ str address) :
    char = '.' ∨ char.isDigit = true := by
  simp only [str, List.intercalate, List.intersperse, List.flatten_cons, List.flatten_nil,
    List.mem_append, List.append_nil] at member
  rcases member with digit | dot | digit | dot | digit | dot | digit
  · exact .inr (Text.isDigit_of_mem_ofNat digit)
  · exact .inl (by simpa using dot)
  · exact .inr (Text.isDigit_of_mem_ofNat digit)
  · exact .inl (by simpa using dot)
  · exact .inr (Text.isDigit_of_mem_ofNat digit)
  · exact .inl (by simpa using dot)
  · exact .inr (Text.isDigit_of_mem_ofNat digit)

theorem parse?_str (address : Address) : parse? (str address) = some address := by
  have split : (str address).splitOn '.' = [Text.ofNat (address.val / 2 ^ 24),
      Text.ofNat (address.val / 2 ^ 16 % 256), Text.ofNat (address.val / 2 ^ 8 % 256),
      Text.ofNat (address.val % 256)] :=
    List.splitOn_intercalate '.' (by simp [not_mem_ofNat]) (by simp)
  have bound := address.isLt
  have whole : address.val / 2 ^ 24 * 2 ^ 24 + address.val / 2 ^ 16 % 256 * 2 ^ 16 +
      address.val / 2 ^ 8 % 256 * 2 ^ 8 + address.val % 256 = address.val := by omega
  have first : decimal? 255 (Text.ofNat (address.val / 2 ^ 24)) = some (address.val / 2 ^ 24) :=
    decimal?_ofNat (by omega)
  have octet (value : Nat) : decimal? 255 (Text.ofNat (value % 256)) = some (value % 256) :=
    decimal?_ofNat (by omega)
  simp only [parse?, split, List.map_cons, List.map_nil, first, octet, whole]
  exact congrArg some (Fin.ofNat_val_eq_self address)

theorem mask_network (network : Network) : mask network.address network.prefixlen = network := by
  obtain ⟨address, prefixlen, masked⟩ := network
  have kept : address.val - address.val % 2 ^ (32 - prefixlen.val) = address.val := by omega
  simp only [mask, kept]

theorem network?_str (network : Network) :
    network? (str network.address ++ '/' :: Text.ofNat network.prefixlen.val) = some network := by
  have hostFree : '/' ∉ str network.address := by
    intro member
    rcases mem_str member with dot | digit
    · simp at dot
    · simp at digit
  have lengthFree : '/' ∉ Text.ofNat network.prefixlen.val := not_mem_ofNat (by decide) _
  have split := Text.splitOn_pair hostFree lengthFree
  have bound := network.prefixlen.isLt
  simp only [network?, split, parse?_str, decimal?_ofNat (show network.prefixlen.val ≤ 32 by omega)]
  exact congrArg some (by rw [Fin.ofNat_val_eq_self]; exact mask_network network)

end Ipv4

def ipv4 : Ipaddress where
  Network := Ipv4.Network
  Address := Ipv4.Address
  network? := Ipv4.network?
  address? := Ipv4.address?
  networkAddress := Ipv4.Network.address
  prefixlen network := network.prefixlen.val
  str := Ipv4.str
  network?_print := Ipv4.network?_str
  address?_print := Ipv4.parse?_str
  str_plain address := by
    refine ⟨?_, ?_, ?_⟩
    · intro empty
      have parsed := Ipv4.parse?_str address
      rw [empty] at parsed
      contradiction
    · intro member
      rcases Ipv4.mem_str member with dot | digit
      · simp at dot
      · simp at digit
    · intro same
      have parsed := Ipv4.parse?_str address
      rw [same] at parsed
      contradiction

end ActiveBgp.Rib

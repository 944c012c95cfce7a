import PyMesh.Ipaddress.Address

/-! Python's `ipaddress`: the texts of addresses, and the CIDR texts that
`IPv4Network(…, strict=False)` and `IPv6Network(…, strict=False)` accept. -/
namespace PyMesh

open Text

/-- `isascii() and isdigit()`. -/
def isDecimal (s : String) : Bool := s ≠ "" && s.toList.all Char.isDigit

namespace IPv4Address

/-- `_parse_octet`: one to three digits, no leading zero, at most 255. -/
def parseOctet (s : String) : Option Nat :=
  if !isDecimal s || 3 < s.length || (s != "0" && startsWith s "0") then none
  else (readNat 10 s.toList).filter (· ≤ 255)

/-- `_ip_int_from_string`: four octets. -/
def parse (s : String) : Option IPv4Address :=
  match split s '.' with
  | [a, b, c, d] => do
    let a ← parseOctet a
    let b ← parseOctet b
    let c ← parseOctet c
    let d ← parseOctet d
    return .ofNat (a * 2 ^ 24 + b * 2 ^ 16 + c * 2 ^ 8 + d)
  | _ => none

def octets (a : IPv4Address) : List Nat :=
  [a.toNat / 2 ^ 24, a.toNat / 2 ^ 16 % 256, a.toNat / 2 ^ 8 % 256, a.toNat % 256]

/-- `str(address)`: the dotted quad. -/
def str (a : IPv4Address) : String := join '.' (a.octets.map Nat.repr)

end IPv4Address

namespace IPv6Address

/-- `_parse_hextet`: one to four hexadecimal digits. -/
def parseHextet (s : String) : Option Nat :=
  if 4 < s.length then none else readNat 16 s.toList

def hex (n : Nat) : String := String.ofList (Nat.toDigits 16 n)

/-- An IPv4-style last part stands for two hextets. -/
def expandDotted (parts : List String) : Option (List String) :=
  match parts.getLast? with
  | none => none
  | some last =>
    if '.' ∈ last.toList then
      (IPv4Address.parse last).map fun v4 =>
        parts.dropLast ++ [hex (v4.toNat / 2 ^ 16), hex (v4.toNat % 2 ^ 16)]
    else some parts

/-- The parts before and after the one `::`, or all parts when there is none. -/
def splitSkip (parts : List String) : Option (List String × List String) :=
  match (List.range' 1 (parts.length - 2)).filter fun i => parts[i]? = some "" with
  | [] => if parts.length = 8 then some (parts, []) else none
  | [skip] =>
    let hi := parts.take skip
    let lo := parts.drop (skip + 1)
    -- An empty first or last part is only allowed next to the `::`.
    if hi.head? = some "" && hi.length ≠ 1 || lo.getLast? = some "" && lo.length ≠ 1 then none
    else
      let hi := if hi.head? = some "" then [] else hi
      let lo := if lo.getLast? = some "" then [] else lo
      if hi.length + lo.length < 8 then some (hi, lo) else none
  | _ => none

/-- `_ip_int_from_string`. -/
def parseInt (s : String) : Option Nat := do
  let parts := split s ':'
  if parts.length < 3 then none
  let parts ← expandDotted parts
  if 9 < parts.length then none
  let (hi, lo) ← splitSkip parts
  let hi ← hi.mapM parseHextet
  let lo ← lo.mapM parseHextet
  let value := (hi ++ List.replicate (8 - hi.length - lo.length) 0 ++ lo).foldl
    (fun acc h => acc * 2 ^ 16 + h) 0
  return value

/-- `IPv6Address(s)`: a scope after `%` must be a single non-empty word. -/
def parse (s : String) : Option IPv6Address :=
  match split s '%' with
  | [addr] => (parseInt addr).map .ofNat
  | [addr, scope] => if scope = "" then none else (parseInt addr).map .ofNat
  | _ => none

def hextets (a : IPv6Address) : List Nat :=
  (List.range 8).map fun i => a.toNat / 2 ^ (16 * (7 - i)) % 2 ^ 16

/-- The state of the loop of `_compress_hextets`: the best run of zeros so far, as its start
and its length, and the run that is open. -/
structure ZeroRun where
  bestStart : Nat
  bestLen : Nat
  start : Nat
  len : Nat

/-- `_compress_hextets`, the loop: the first of the longest runs of `"0"`. -/
def zeroRun : List String → Nat → ZeroRun → ZeroRun
  | [], _, z => z
  | h :: hs, index, z =>
    if h = "0" then
      let start := if z.len = 0 then index else z.start
      if z.bestLen < z.len + 1 then zeroRun hs (index + 1) ⟨start, z.len + 1, start, z.len + 1⟩
      else zeroRun hs (index + 1) ⟨z.bestStart, z.bestLen, start, z.len + 1⟩
    else zeroRun hs (index + 1) ⟨z.bestStart, z.bestLen, 0, 0⟩

/-- `_compress_hextets`: a run of at least two zeros becomes an empty part. -/
def compress (hs : List String) : List String :=
  let z := zeroRun hs 0 ⟨0, 0, 0, 0⟩
  if 1 < z.bestLen then
    let stop := z.bestStart + z.bestLen
    (if z.bestStart = 0 then [""] else []) ++ hs.take z.bestStart ++ [""] ++ hs.drop stop ++
      (if stop = hs.length then [""] else [])
  else hs

/-- `str(address)`. -/
def str (a : IPv6Address) : String := join ':' (compress (a.hextets.map hex))

end IPv6Address

/-- `_prefix_from_prefix_string`. -/
def parsePrefixlen (width : Nat) (s : String) : Option Nat :=
  if isDecimal s then (readNat 10 s.toList).filter (· ≤ width) else none

/-- `_prefix_from_ip_string`: a netmask, or else a hostmask. -/
def parseMask (s : String) : Option Nat := do
  let ip ← IPv4Address.parse s
  let prefixOf (n : Nat) := (List.range 33).find? fun p => n = 2 ^ 32 - 2 ^ (32 - p)
  prefixOf ip.toNat <|> prefixOf (2 ^ 32 - 1 - ip.toNat)

def makeNetwork {w : Nat} (a : Address w) (p : Nat) : Option (IPNetwork w) :=
  if hp : p ≤ w then some (.ofAddress a p hp) else none

namespace IPv4Network

/-- `IPv4Network(s, strict=False)`; `none` where Python raises a `ValueError`. -/
def parse (s : String) : Option IPv4Network :=
  match split s '/' with
  | [addr] => do makeNetwork (← IPv4Address.parse addr) 32
  | [addr, mask] => do
    let a ← IPv4Address.parse addr
    makeNetwork a (← parsePrefixlen 32 mask <|> parseMask mask)
  | _ => none

end IPv4Network

namespace IPv6Network

/-- `IPv6Network(s, strict=False)`; `none` where Python raises a `ValueError`. -/
def parse (s : String) : Option IPv6Network :=
  match split s '/' with
  | [addr] => do makeNetwork (← IPv6Address.parse addr) 128
  | [addr, mask] => do
    let a ← IPv6Address.parse addr
    makeNetwork a (← parsePrefixlen 128 mask)
  | _ => none

end IPv6Network

end PyMesh

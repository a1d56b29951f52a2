import CubeSandbox.Lpm

/-!
Text as Go's standard library handles it: a string is a list of bytes.

The functions follow `strings`, `net` and `net/netip`. Lower-casing needs a remark: besides
the ASCII letters, two other code points have an ASCII letter as their lower case, the
Kelvin sign and the dotted capital I. All other text that is not ASCII is left as it is
here, which keeps it outside ASCII as Go does.
-/

namespace CubeSandbox.GoText

open Lpm

abbrev Bytes := List UInt8

-- Named proofs, so that definitions in different modules refer to the same ones.
instance : LawfulBEq Bytes := inferInstance

instance : LawfulBEq (Nat × Bytes) := inferInstance

def ascii (s : String) : Bytes := s.toList.map fun c => c.toNat.toUInt8

def isDigit (b : UInt8) : Bool := 48 ≤ b && b ≤ 57

def asciiLower (b : UInt8) : UInt8 := if 65 ≤ b && b ≤ 90 then b + 32 else b

def toLower : Bytes → Bytes
  | 0xe2 :: 0x84 :: 0xaa :: s => 107 :: toLower s
  | 0xc4 :: 0xb0 :: s => 105 :: toLower s
  | b :: s => asciiLower b :: toLower s
  | [] => []

/-- The encodings of the white space code points. -/
def whiteSpace : List Bytes :=
  [[9], [10], [11], [12], [13], [32], [0xc2, 0x85], [0xc2, 0xa0], [0xe1, 0x9a, 0x80],
    [0xe2, 0x80, 0x80], [0xe2, 0x80, 0x81], [0xe2, 0x80, 0x82], [0xe2, 0x80, 0x83],
    [0xe2, 0x80, 0x84], [0xe2, 0x80, 0x85], [0xe2, 0x80, 0x86], [0xe2, 0x80, 0x87],
    [0xe2, 0x80, 0x88], [0xe2, 0x80, 0x89], [0xe2, 0x80, 0x8a], [0xe2, 0x80, 0xa8],
    [0xe2, 0x80, 0xa9], [0xe2, 0x80, 0xaf], [0xe2, 0x81, 0x9f], [0xe3, 0x80, 0x80]]

/-- Strip any of the words from the front, at most `fuel` times. -/
def stripWords (words : List Bytes) : Nat → Bytes → Bytes
  | 0, s => s
  | fuel + 1, s =>
    match words.find? fun w => w.isPrefixOf s with
    | some w => stripWords words fuel (s.drop w.length)
    | none => s

def trimSpace (s : Bytes) : Bytes :=
  let left := stripWords whiteSpace s.length s
  (stripWords (whiteSpace.map List.reverse) left.length left.reverse).reverse

def trimSuffix (s : Bytes) (b : UInt8) : Bytes :=
  if s.getLast? = some b then s.dropLast else s

/-! ### Addresses -/

/-- An address without a zone. -/
inductive Addr
  | v4 (b : Bytes)
  | v6 (b : Bytes)

def decimal (s : Bytes) : Nat := s.foldl (fun n b => n * 10 + (b.toNat - 48)) 0

/-- A field of a dotted address: no sign, no leading zero, at most 255. -/
def octet (s : Bytes) : Option UInt8 :=
  if s ≠ [] ∧ s.all isDigit ∧ (s.length = 1 ∨ s.head? ≠ some 48) ∧ decimal s ≤ 255 then
    some (decimal s).toUInt8
  else none

def parseIPv4 (s : Bytes) : Option Bytes :=
  match s.splitOn 46 with
  | [a, b, c, d] => do
    let a ← octet a
    let b ← octet b
    let c ← octet c
    let d ← octet d
    return [a, b, c, d]
  | _ => none

def hexDigit (b : UInt8) : Option Nat :=
  if isDigit b then some (b.toNat - 48)
  else if 97 ≤ b && b ≤ 102 then some (b.toNat - 87)
  else if 65 ≤ b && b ≤ 70 then some (b.toNat - 55)
  else none

def hexValue (s : Bytes) : Nat := s.foldl (fun n b => n * 16 + (hexDigit b).getD 0) 0

/-- The groups of an address: the bytes so far, where a double colon stood, the text left. -/
def parseGroups : Nat → Bytes → Option Nat → Bytes → Option (Bytes × Option Nat)
  | 0, ip, ellipsis, s => if s = [] then some (ip, ellipsis) else none
  | n + 1, ip, ellipsis, s =>
    let digits := s.takeWhile fun b => (hexDigit b).isSome
    let rest := s.drop digits.length
    if digits = [] ∨ digits.length > 4 then none
    else if rest.head? = some 46 then
      -- the rest is an embedded dotted address
      if (ellipsis.isNone ∧ ip.length ≠ 12) ∨ ip.length + 4 > 16 then none
      else (parseIPv4 s).map fun b => (ip ++ b, ellipsis)
    else
      let acc := hexValue digits
      let ip := ip ++ [(acc / 256).toUInt8, acc.toUInt8]
      match rest with
      | [] => some (ip, ellipsis)
      | [_] => none
      | 58 :: 58 :: s =>
        if ellipsis.isSome then none
        else if s = [] then some (ip, some ip.length)
        else parseGroups n ip (some ip.length) s
      | 58 :: s => parseGroups n ip ellipsis s
      | _ => none

/-- An address of sixteen bytes. The text has no zone. -/
def parseIPv6 (s : Bytes) : Option Bytes :=
  let res :=
    match s with
    | [58, 58] => some ([], some 0)
    | 58 :: 58 :: s => parseGroups 8 [] (some 0) s
    | s => parseGroups 8 [] none s
  match res with
  | none => none
  | some (ip, none) => if ip.length = 16 then some ip else none
  | some (ip, some e) =>
    if ip.length < 16 then
      some (ip.take e ++ List.replicate (16 - ip.length) 0 ++ ip.drop e)
    else none

/-- `netip.ParseAddr`, without the addresses that have a zone: both callers refuse those. -/
def parseAddr (s : Bytes) : Option Addr :=
  match s.find? fun b => b == 46 || b == 58 || b == 37 with
  | some 46 => (parseIPv4 s).map .v4
  | some 58 => if s.contains 37 then none else (parseIPv6 s).map .v6
  | _ => none

def v4InV6Prefix : Bytes := [0, 0, 0, 0, 0, 0, 0, 0, 0, 0, 0xff, 0xff]

def Addr.as16 : Addr → Bytes
  | .v4 b => v4InV6Prefix ++ b
  | .v6 b => b

def Addr.bitLen : Addr → Nat
  | .v4 _ => 32
  | .v6 _ => 128

/-- `net.ParseIP`: an address of sixteen bytes. -/
def parseIP (s : Bytes) : Option Bytes := (parseAddr s).map Addr.as16

/-- `To4`: the four bytes of an address that stands for an IPv4 address. -/
def to4 (ip : Bytes) : Option Bytes :=
  if ip.length = 16 ∧ ip.take 12 = v4InV6Prefix then some (ip.drop 12) else none

/-- The byte `b` under a mask of `n` ones. -/
def maskByte (n : Nat) (b : UInt8) : UInt8 :=
  if n ≥ 8 then b else b &&& ~~~((255 : UInt8) >>> n.toUInt8)

def maskBytes : Nat → Bytes → Bytes
  | _, [] => []
  | n, b :: s => maskByte n b :: maskBytes (n - 8) s

structure IPNet where
  ip : Bytes
  ones : Nat

/-- The number after the slash. -/
def maskLen (s : Bytes) (bitLen : Nat) : Option Nat :=
  if s ≠ [] ∧ s.all isDigit ∧ decimal s ≤ bitLen then some (decimal s) else none

/-- `net.ParseCIDR`: the address, and the network of it. -/
def parseCIDR (s : Bytes) : Option (Addr × IPNet) :=
  let addr := s.takeWhile (· != 47)
  if addr.length = s.length then none
  else do
    let a ← parseAddr addr
    let n ← maskLen (s.drop (addr.length + 1)) a.bitLen
    let ip := match a with
      | .v4 b => b
      | .v6 b => b
    return (a, ⟨maskBytes n ip, n⟩)

/-! ### Addresses as text -/

def hexText (n : Nat) : Bytes := ascii (String.ofList (Nat.toDigits 16 n))

def decimalText (n : Nat) : Bytes := ascii (String.ofList (Nat.toDigits 10 n))

/-- The text of the four bytes of an IPv4 address. -/
def dotted (ip : Bytes) : Bytes := [46].intercalate (ip.map fun b => decimalText b.toNat)

def groups : Bytes → List Nat
  | a :: b :: ip => (a.toNat * 256 + b.toNat) :: groups ip
  | _ => []

/-- Where the first of the longest runs of at least two zeros starts, and where it ends. -/
def zeroRun (gs : List Nat) : Option (Nat × Nat) :=
  (List.range gs.length).foldl (fun best i =>
    let l := ((gs.drop i).takeWhile (· = 0)).length
    let found := match best with
      | some (start, stop) => stop - start
      | none => 0
    if 2 ≤ l ∧ found < l then some (i, i + l) else best) none

def ipString (ip : Bytes) : Bytes :=
  if ip.length = 4 then dotted ip
  else match to4 ip with
  | some ip => dotted ip
  | none =>
    let gs := groups ip
    let text (gs : List Nat) : Bytes := [58].intercalate (gs.map hexText)
    match zeroRun gs with
    | some (i, j) => text (gs.take i) ++ [58, 58] ++ text (gs.drop j)
    | none => text gs

/-- `IPNet.String`. The mask of an IPv4 network in sixteen bytes is its last four bytes. -/
def ipNetString (net : IPNet) : Bytes :=
  if net.ip.length = 4 then dotted net.ip ++ 47 :: decimalText net.ones
  else match to4 net.ip with
  | some ip => dotted ip ++ 47 :: decimalText (net.ones - 96)
  | none => ipString net.ip ++ 47 :: decimalText net.ones

/-- `net.SplitHostPort`: the host, without its brackets, and the port after the last colon. -/
def splitHostPort (s : Bytes) : Option (Bytes × Bytes) :=
  if ¬ 58 ∈ s then none
  else
    let port := (s.reverse.takeWhile (· != 58)).reverse
    let front := s.take (s.length - port.length - 1)
    match s with
    | 91 :: rest =>
      let host := rest.takeWhile (· != 93)
      if 93 ∈ rest ∧ host.length + 2 = front.length ∧ ¬ 91 ∈ rest ∧
          ¬ 93 ∈ s.drop (host.length + 2) then some (host, port)
      else none
    | _ => if ¬ 58 ∈ front ∧ ¬ 91 ∈ s ∧ ¬ 93 ∈ s then some (front, port) else none

/-! ### Text in JSON -/

/-- How many bytes the code point at the front of a text has; none if it is not well formed. -/
def runeLen : Bytes → Nat
  | [] => 0
  | b :: s =>
    let tail (lo hi : UInt8) (n : Nat) : Nat :=
      if (s.take n).length = n ∧ (s.take 1).all (fun c => lo ≤ c && c ≤ hi) ∧
          (s.take n).all (fun c => 0x80 ≤ c && c ≤ 0xbf) then n + 1
      else 0
    if b < 0x80 then 1
    else if b < 0xc2 then 0
    else if b < 0xe0 then tail 0x80 0xbf 1
    else if b = 0xe0 then tail 0xa0 0xbf 2
    else if b = 0xed then tail 0x80 0x9f 2
    else if b < 0xf0 then tail 0x80 0xbf 2
    else if b = 0xf0 then tail 0x90 0xbf 3
    else if b < 0xf4 then tail 0x80 0xbf 3
    else if b = 0xf4 then tail 0x80 0x8f 3
    else 0

/-- At most `fuel` code points, with the replacement character for bytes that belong to none. -/
def replaceInvalid : Nat → Bytes → Bytes
  | 0, _ => []
  | _, [] => []
  | fuel + 1, b :: s =>
    let n := runeLen (b :: s)
    if n = 0 then 0xef :: 0xbf :: 0xbd :: replaceInvalid fuel s
    else (b :: s).take n ++ replaceInvalid fuel ((b :: s).drop n)

/-- A string that went through `json.Marshal` and is decoded again. -/
def jsonText (s : Bytes) : Bytes := replaceInvalid s.length s

end CubeSandbox.GoText

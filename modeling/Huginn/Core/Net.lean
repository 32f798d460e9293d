import Huginn.Core.Text
import Huginn.Lib.Escape

/-!
# Internet addresses

The part of `std::net` that the program uses: `IpAddr` and `SocketAddr`, how they are parsed, and
how an `IpAddr` is displayed. A parser returns what it read and the rest of the text.
-/

namespace Huginn

open Escape

/-- `Ipv4Addr`, by its octets. -/
structure Ipv4Addr where
  a : UInt8
  b : UInt8
  c : UInt8
  d : UInt8
  deriving DecidableEq, Repr

/-- `Ipv6Addr`, by its eight segments. -/
structure Ipv6Addr where
  segments : List UInt16
  length_segments : segments.length = 8
  deriving DecidableEq, Repr

inductive IpAddr
  | v4 (ip : Ipv4Addr)
  | v6 (ip : Ipv6Addr)
  deriving DecidableEq, Repr

/-- `SocketAddr`. The flow information of a parsed address is always 0 and left out. -/
inductive SocketAddr
  | v4 (ip : Ipv4Addr) (port : UInt16)
  | v6 (ip : Ipv6Addr) (port : UInt16) (scopeId : UInt32)
  deriving DecidableEq, Repr

/-- `Ipv4Addr::LOCALHOST`. -/
def Ipv4Addr.LOCALHOST : Ipv4Addr := ⟨127, 0, 0, 1⟩

/-- `Ipv4Addr::is_unspecified`. -/
def Ipv4Addr.isUnspecified (ip : Ipv4Addr) : Bool := ip = ⟨0, 0, 0, 0⟩

/-- `Ipv6Addr::is_unspecified`. -/
def Ipv6Addr.isUnspecified (ip : Ipv6Addr) : Bool := ip.segments = [0, 0, 0, 0, 0, 0, 0, 0]

namespace IpAddr

/-- `IpAddr::is_unspecified`. -/
def isUnspecified : IpAddr → Bool
  | v4 ip => ip.isUnspecified
  | v6 ip => ip.isUnspecified

/-- `IpAddr::is_ipv4`. -/
def isIpv4 : IpAddr → Bool
  | v4 _ => true
  | v6 _ => false

/-- `IpAddr::is_ipv6`. -/
def isIpv6 : IpAddr → Bool
  | v4 _ => false
  | v6 _ => true

end IpAddr

/-! ### Parsing -/

/-- `Parser::read_separator`: a separator, except before the first item. -/
def readSeparator {α : Type} (sep : Char) (index : ℕ) (inner : List Char → Option (α × List Char))
    (cs : List Char) : Option (α × List Char) :=
  if 0 < index then (expect sep cs).bind inner else inner cs

/-- `Parser::read_number`, for a type with the values up to `max`. -/
def readNumber (radix : ℕ) (maxDigits : Option ℕ) (allowZeroPrefix : Bool) (max : ℕ)
    (cs : List Char) : Option (ℕ × List Char) :=
  let digits := cs.takeWhile fun c => (toDigit radix c).isSome
  if digits = [] then none
  -- too many digits, a leading zero and an overflow fail at once, with no shorter number tried
  else if maxDigits.any fun limit => limit < digits.length then none
  else if !allowZeroPrefix && digits.head? == some '0' && 1 < digits.length then none
  else do
    let n ← digitsValue radix digits
    if n ≤ max then some (n, cs.drop digits.length) else none

/-- `Parser::read_ipv4_addr`. -/
def readIpv4Addr (cs : List Char) : Option (Ipv4Addr × List Char) := do
  let group := fun index => readSeparator '.' index (readNumber 10 (some 3) false 255)
  let (a, cs) ← group 0 cs
  let (b, cs) ← group 1 cs
  let (c, cs) ← group 2 cs
  let (d, cs) ← group 3 cs
  some (⟨.ofNat a, .ofNat b, .ofNat c, .ofNat d⟩, cs)

/-- Two octets as one segment. -/
def segmentOfOctets (high low : UInt8) : UInt16 := .ofNat (high.toNat * 256 + low.toNat)

/-- `read_groups`, from group `index` on: at most `left` more groups, the last two of which can be
written as an IPv4 address, and whether they were. -/
def readGroups (index : ℕ) : ℕ → List Char → List UInt16 × Bool × List Char
  | 0, cs => ([], false, cs)
  | left + 1, cs =>
    -- an IPv4 address is tried first, wherever there is room for two groups
    match if 0 < left then readSeparator ':' index readIpv4Addr cs else none with
    | some (ip, cs) => ([segmentOfOctets ip.a ip.b, segmentOfOctets ip.c ip.d], true, cs)
    | none =>
      match readSeparator ':' index (readNumber 16 (some 4) true 0xFFFF) cs with
      | some (group, cs) =>
        let (groups, ipv4, cs) := readGroups (index + 1) left cs
        (.ofNat group :: groups, ipv4, cs)
      | none => ([], false, cs)

theorem length_readGroups_le (index left : ℕ) (cs : List Char) :
    (readGroups index left cs).1.length ≤ left := by
  induction left generalizing index cs with
  | zero => simp [readGroups]
  | succ left ih =>
    rw [readGroups]
    split
    · -- the two segments of an IPv4 address, for which at least two groups are left
      rename_i h
      split_ifs at h with hleft
      show 2 ≤ left + 1
      omega
    · split
      · have := ih (index + 1)
        simpa using this _
      · simp

/-- The segments before and after `::`, with the zeros that it stands for. -/
def fillZeros (front back : List UInt16) : List UInt16 :=
  front ++ List.replicate (8 - front.length - back.length) 0 ++ back

theorem length_fillZeros {front back : List UInt16} (hfront : front.length ≤ 8)
    (hback : back.length ≤ 7 - front.length) : (fillZeros front back).length = 8 := by
  rw [fillZeros, List.length_append, List.length_append, List.length_replicate]
  omega

/-- `Parser::read_ipv6_addr`: eight groups, or fewer with a `::` for the zeros left out. -/
def readIpv6Addr (cs : List Char) : Option (Ipv6Addr × List Char) :=
  let front := readGroups 0 8 cs
  if h : front.1.length = 8 then some (⟨front.1, h⟩, front.2.2)
  -- an IPv4 address cannot stand before `::`
  else if front.2.1 then none
  else do
    let rest ← expect ':' (← expect ':' front.2.2)
    let back := readGroups 0 (7 - front.1.length) rest
    some (⟨fillZeros front.1 back.1,
      length_fillZeros (length_readGroups_le 0 8 cs) (length_readGroups_le 0 _ rest)⟩, back.2.2)

/-- `Parser::read_ip_addr`. -/
def readIpAddr (cs : List Char) : Option (IpAddr × List Char) :=
  match readIpv4Addr cs with
  | some (ip, cs) => some (.v4 ip, cs)
  | none => (readIpv6Addr cs).map fun (ip, cs) => (.v6 ip, cs)

/-- `Parser::read_port`. -/
def readPort (cs : List Char) : Option (UInt16 × List Char) := do
  let (port, cs) ← readNumber 10 none true 0xFFFF (← expect ':' cs)
  some (.ofNat port, cs)

/-- `Parser::read_scope_id`, or 0 if there is none. -/
def readScopeId (cs : List Char) : UInt32 × List Char :=
  match (expect '%' cs).bind (readNumber 10 none true 0xFFFFFFFF) with
  | some (scope, cs) => (.ofNat scope, cs)
  | none => (0, cs)

/-- `Parser::read_socket_addr_v4`. -/
def readSocketAddrV4 (cs : List Char) : Option (SocketAddr × List Char) := do
  let (ip, cs) ← readIpv4Addr cs
  let (port, cs) ← readPort cs
  some (.v4 ip port, cs)

/-- `Parser::read_socket_addr_v6`. -/
def readSocketAddrV6 (cs : List Char) : Option (SocketAddr × List Char) := do
  let (ip, cs) ← readIpv6Addr (← expect '[' cs)
  let (scopeId, cs) := readScopeId cs
  let (port, cs) ← readPort (← expect ']' cs)
  some (.v6 ip port scopeId, cs)

/-- `Parser::parse_with`: nothing may be left. -/
def parseWith {α : Type} (inner : List Char → Option (α × List Char)) (s : String) : Option α :=
  match inner s.toList with
  | some (x, []) => some x
  | _ => none

/-- `str::parse::<IpAddr>`. -/
def IpAddr.parse (s : String) : Option IpAddr := parseWith readIpAddr s

/-- `str::parse::<SocketAddr>`. -/
def SocketAddr.parse (s : String) : Option SocketAddr :=
  parseWith (fun cs => (readSocketAddrV4 cs).or (readSocketAddrV6 cs)) s

example : IpAddr.parse "127.0.0.1" = some (.v4 .LOCALHOST) := by decide

example : IpAddr.parse "2001:DB8::1.2.3.4" =
    some (.v6 ⟨[0x2001, 0xDB8, 0, 0, 0, 0, 0x0102, 0x0304], rfl⟩) := by decide

example : SocketAddr.parse "[::1]:53" = some (.v6 ⟨[0, 0, 0, 0, 0, 0, 0, 1], rfl⟩ 53 0) := by decide

/-- A group of an IPv4 address has no leading zero. -/
example : IpAddr.parse "127.0.0.01" = none := by decide

/-! ### Displaying -/

/-- `impl Display for Ipv4Addr`. -/
def Ipv4Addr.display (ip : Ipv4Addr) : String :=
  toString ip.a.toNat ++ "." ++ toString ip.b.toNat ++ "." ++ toString ip.c.toNat ++ "." ++
    toString ip.d.toNat

/-- `Ipv6Addr::to_ipv4_mapped`. -/
def Ipv6Addr.toIpv4Mapped (ip : Ipv6Addr) : Option Ipv4Addr :=
  match ip.segments with
  | [0, 0, 0, 0, 0, 0xFFFF, g, h] =>
    some ⟨.ofNat (g.toNat / 256), .ofNat (g.toNat % 256), .ofNat (h.toNat / 256),
      .ofNat (h.toNat % 256)⟩
  | _ => none

/-- A run of zero segments. -/
structure Span where
  start : ℕ
  len : ℕ
  deriving DecidableEq, Repr

/-- The longest run of zero segments, the first of them if there are several. -/
def longestZeros (segments : List UInt16) : Span :=
  let (_, longest) := segments.zipIdx.foldl (fun (current, longest) (segment, i) =>
    if segment = 0 then
      let current : Span := ⟨if current.len = 0 then i else current.start, current.len + 1⟩
      (current, if longest.len < current.len then current else longest)
    else (⟨0, 0⟩, longest)) ((⟨0, 0⟩ : Span), (⟨0, 0⟩ : Span))
  longest

/-- `fmt_subslice`: the segments in base 16, with colons between them. -/
def fmtSubslice (chunk : List UInt16) : String :=
  String.intercalate ":" (chunk.map fun s => String.ofList (Nat.toDigits 16 s.toNat))

/-- `impl Display for Ipv6Addr`. -/
def Ipv6Addr.display (ip : Ipv6Addr) : String :=
  match ip.toIpv4Mapped with
  | some ipv4 => "::ffff:" ++ ipv4.display
  | none =>
    let zeroes := longestZeros ip.segments
    -- a single zero is not shortened
    if 1 < zeroes.len then
      fmtSubslice (ip.segments.take zeroes.start) ++ "::" ++
        fmtSubslice (ip.segments.drop (zeroes.start + zeroes.len))
    else fmtSubslice ip.segments

/-- `impl Display for IpAddr`, which is also its `Debug`. -/
def IpAddr.display : IpAddr → String
  | v4 ip => ip.display
  | v6 ip => ip.display

/-- `{:?}` of a list of addresses. -/
def debugIpAddrs (ips : List IpAddr) : String :=
  "[" ++ String.intercalate ", " (ips.map IpAddr.display) ++ "]"

example : (IpAddr.v6 ⟨[0x2001, 0xDB8, 0, 0, 1, 0, 0, 0], rfl⟩).display = "2001:db8:0:0:1::" := by
  decide +kernel

end Huginn

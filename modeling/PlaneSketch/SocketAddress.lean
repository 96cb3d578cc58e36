import PlaneSketch.Json.Token

/-! Socket addresses: an IPv4 or IPv6 address with a port, read strictly and written in the
canonical form. -/
namespace PlaneSketch

/-- Eight groups of 16 bits. -/
structure Ipv6 where
  groups : List Nat
  deriving DecidableEq, Repr

inductive SocketAddress
  | ipv4 (octets : List Nat) (port : Nat)
  | ipv6 (address : Ipv6) (scope : Nat) (port : Nat)
  deriving DecidableEq, Repr

namespace SocketAddress

/-- A reader takes a value off the front of a text, or fails without taking anything. -/
abbrev Reader (β : Type) := List Char → Option (β × List Char)

def digitValue? (base : Nat) (c : Char) : Option Nat :=
  (Json.hexDigit? c).filter (· < base)

/-- Take digits of a base, at most `most` of them if that is given, as long as there are any. -/
def takeDigits (base : Nat) (most : Option Nat) (cs : List Char) : List Nat × List Char :=
  let ds := (cs.takeWhile fun c => (digitValue? base c).isSome)
  if most.any (· < ds.length) then (([] : List Nat), cs)
  else (ds.filterMap (digitValue? base), cs.drop ds.length)

def valueOf (base : Nat) (ds : List Nat) : Nat := ds.foldl (base * · + ·) 0

/-- A number below `bound`. Too many digits fail; so does a leading zero where none may stand. -/
def readNumber (base : Nat) (most : Option Nat) (leadingZero : Bool) (bound : Nat) : Reader Nat :=
  fun cs =>
    let (ds, rest) := takeDigits base most cs
    if ds.isEmpty then none
    else if !leadingZero && ds.head? == some 0 && ds.length != 1 then none
    else if valueOf base ds < bound then some (valueOf base ds, rest)
    else none

def readChar (c : Char) : Reader Unit
  | d :: rest => if d = c then some ((), rest) else none
  | [] => none

def readOctet : Reader Nat := readNumber 10 (some 3) false 256

def readIpv4 : Reader (List Nat) := fun cs => do
  let (a, cs) ← readOctet cs
  let (_, cs) ← readChar '.' cs
  let (b, cs) ← readOctet cs
  let (_, cs) ← readChar '.' cs
  let (c, cs) ← readOctet cs
  let (_, cs) ← readChar '.' cs
  let (d, cs) ← readOctet cs
  return ([a, b, c, d], cs)

def pairs : List Nat → List Nat
  | a :: b :: rest => (256 * a + b) :: pairs rest
  | _ => []

/-- Read up to `limit` groups joined by colons, after `before` of them; an IPv4 address counts as
two and ends the groups. -/
def readGroups : Nat → Nat → List Char → List Nat × Bool × List Char
  | 0, _, cs => ([], false, cs)
  | limit + 1, before, cs =>
    let separated : Option (List Char) :=
      if before = 0 then some cs else (readChar ':' cs).map Prod.snd
    match separated with
    | none => ([], false, cs)
    | some body =>
      match (if 0 < limit then readIpv4 body else none) with
      | some (octets, rest) => (pairs octets, true, rest)
      | none =>
        match readNumber 16 (some 4) true 0x10000 body with
        | some (group, rest) =>
          let (groups, ended, rest) := readGroups limit (before + 1) rest
          (group :: groups, ended, rest)
        | none => ([], false, cs)

/-- Eight groups, or fewer around a double colon that stands for at least one zero group. -/
def readIpv6 : Reader Ipv6 := fun cs => do
  let (head, ended, cs) := readGroups 8 0 cs
  if head.length = 8 then some (⟨head⟩, cs)
  else if ended then none
  else
    let (_, cs) ← readChar ':' cs
    let (_, cs) ← readChar ':' cs
    let (tail, _, cs) := readGroups (8 - (head.length + 1)) 0 cs
    return (⟨head ++ List.replicate (8 - head.length - tail.length) 0 ++ tail⟩, cs)

def readPort : Reader Nat := fun cs => do
  let (_, cs) ← readChar ':' cs
  readNumber 10 none true 0x10000 cs

def readScope : Reader Nat := fun cs =>
  match readChar '%' cs with
  | none => some (0, cs)
  | some (_, rest) => readNumber 10 none true 0x100000000 rest

def readSocket4 : Reader SocketAddress := fun cs => do
  let (octets, cs) ← readIpv4 cs
  let (port, cs) ← readPort cs
  return (.ipv4 octets port, cs)

def readSocket6 : Reader SocketAddress := fun cs => do
  let (_, cs) ← readChar '[' cs
  let (address, cs) ← readIpv6 cs
  let (scope, cs) ← readScope cs
  let (_, cs) ← readChar ']' cs
  let (port, cs) ← readPort cs
  return (.ipv6 address scope port, cs)

def ofText? (text : String) : Option SocketAddress :=
  match (readSocket4 text.toList).or (readSocket6 text.toList) with
  | some (address, []) => some address
  | _ => none

def decimal (n : Nat) : List Char := Nat.toDigits 10 n

def hexadecimal (n : Nat) : List Char := Nat.toDigits 16 n

def joined (separator : List Char) (parts : List (List Char)) : List Char :=
  separator.intercalate parts

def ipv4Chars (octets : List Nat) : List Char := joined ['.'] (octets.map decimal)

/-- The length of the run of zeros that starts at each place. -/
def zeroRuns : List Nat → List Nat
  | [] => []
  | group :: rest =>
    let runs := zeroRuns rest
    (if group = 0 then runs.headD 0 + 1 else 0) :: runs

/-- The longest run of zeros, the first of equally long ones, by start and length. -/
def longestRun (groups : List Nat) : Nat × Nat :=
  (zeroRuns groups).zipIdx.foldl
    (fun best run => if best.2 < run.1 then (run.2, run.1) else best) (0, 0)

def groupChars (groups : List Nat) : List Char := joined [':'] (groups.map hexadecimal)

/-- The longest run of at least two zero groups is left out; a mapped IPv4 address is shown as
one. -/
def ipv6Chars (address : Ipv6) : List Char :=
  match address.groups with
  | [0, 0, 0, 0, 0, 0xFFFF, high, low] =>
    "::ffff:".toList ++ ipv4Chars [high / 256, high % 256, low / 256, low % 256]
  | groups =>
    let (start, length) := longestRun groups
    if 1 < length then
      groupChars (groups.take start) ++ [':', ':'] ++ groupChars (groups.drop (start + length))
    else groupChars groups

def chars : SocketAddress → List Char
  | .ipv4 octets port => ipv4Chars octets ++ ':' :: decimal port
  | .ipv6 address scope port =>
    '[' :: ipv6Chars address ++ (if scope = 0 then [] else '%' :: decimal scope) ++
      ']' :: ':' :: decimal port

def text (address : SocketAddress) : String := String.ofList address.chars

def standard : SocketAddress := .ipv4 [127, 0, 0, 1] 3000

def ofSetting? (setting : Option String) : Option SocketAddress := setting.elim (some standard) ofText?

/-- The address to listen on: a setting that is no address is ignored. -/
def listen (setting : Option String) : SocketAddress := (ofSetting? setting).getD standard

end SocketAddress

end PlaneSketch

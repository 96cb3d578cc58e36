import PlaneSketch.EntityId.Sha1
import PlaneSketch.Json.Token

/-! Ids of figures: 128 bits, written as lower-case hexadecimal digits in five groups. -/
namespace PlaneSketch

structure EntityId where
  bits : BitVec 128
  deriving DecidableEq, Repr

namespace EntityId

def groups : List Nat := [8, 4, 4, 4, 12]

def hexDigits (id : EntityId) : List Char :=
  (List.range 32).map fun i => (id.bits.toNat / Nat.pow 16 (31 - i) % 16).digitChar

def hyphenate : List Nat → List Char → List Char
  | [], _ => []
  | [n], cs => cs.take n
  | n :: ns, cs => cs.take n ++ '-' :: hyphenate ns (cs.drop n)

def text (id : EntityId) : String := String.ofList (hyphenate groups id.hexDigits)

def ofHex? (cs : List Char) : Option EntityId :=
  if cs.length = 32 then (Json.hexValue? cs).map fun n => ⟨BitVec.ofNat 128 n⟩ else none

def unhyphenate? : List Nat → List Char → Option (List Char)
  | [], cs => if cs.isEmpty then some [] else none
  | [n], cs => if cs.length = n then some cs else none
  | n :: ns, cs =>
    if n < cs.length ∧ cs[n]? = some '-' then
      (unhyphenate? ns (cs.drop (n + 1))).map (cs.take n ++ ·)
    else none

def ofHyphenated? (cs : List Char) : Option EntityId := (unhyphenate? groups cs).bind ofHex?

def urn : List Char := "urn:uuid:".toList

/-- Plain digits, hyphenated groups, and such groups in braces or after the urn's opening. -/
def ofText? (text : String) : Option EntityId :=
  let cs := text.toList
  if cs.length = 32 then ofHex? cs
  else if cs.length = 36 then ofHyphenated? cs
  else if cs.head? = some '{' ∧ cs.getLast? = some '}' then ofHyphenated? (cs.drop 1).dropLast
  else if (cs.take urn.length).map Char.toLower = urn then ofHyphenated? (cs.drop urn.length)
  else none

/-! Ids that are not read: derived from a seed, or drawn at random. Both carry a version and the
variant bits, so they have the form of the ids that other programs make. -/

def stamped (version n : Nat) : EntityId :=
  let high := n / twoTo 80 * twoTo 80 + version * twoTo 76 + n % twoTo 76
  ⟨BitVec.ofNat 128 (high / twoTo 64 * twoTo 64 + twoTo 63 + high % twoTo 62)⟩

def version (id : EntityId) : Nat := id.bits.toNat / twoTo 76 % 16

def variant (id : EntityId) : Nat := id.bits.toNat / twoTo 62 % 4

def objectNamespace : Nat := 0x6ba7b8129dad11d180b400c04fd430c8

/-- The id of a seed: version 5, from the digest of the namespace and the seed. -/
def ofSeed (seed : String) : EntityId :=
  stamped 5 (Sha1.ofBigEndian
    ((Sha1.digest (Sha1.bigEndian 16 objectNamespace ++ seed.toUTF8.toList)).take 16))

/-- The id of version 4 that random bits give; six of them are overwritten. -/
def ofRandom (bits : BitVec 128) : EntityId := stamped 4 bits.toNat

end EntityId

end PlaneSketch

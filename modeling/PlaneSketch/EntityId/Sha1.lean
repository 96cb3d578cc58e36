/-! The SHA-1 digest of a list of bytes. -/
namespace PlaneSketch.Sha1

structure State where
  a : UInt32
  b : UInt32
  c : UInt32
  d : UInt32
  e : UInt32

def start : State := ⟨0x67452301, 0xEFCDAB89, 0x98BADCFE, 0x10325476, 0xC3D2E1F0⟩

def rotateLeft (w n : UInt32) : UInt32 := (w <<< n) ||| (w >>> (32 - n))

/-- The low `count` bytes of `n`, highest first. -/
def bigEndian (count n : Nat) : List UInt8 :=
  (List.range count).map fun i => UInt8.ofNat (n / Nat.pow 256 (count - 1 - i))

def ofBigEndian (bytes : List UInt8) : Nat := bytes.foldl (fun n b => 256 * n + b.toNat) 0

/-- A one bit, zeros, and the length in bits, up to a whole number of blocks. -/
def pad (message : List UInt8) : List UInt8 :=
  message ++ 0x80 :: List.replicate ((119 - message.length % 64) % 64) 0 ++
    bigEndian 8 (8 * message.length)

def parts {β : Type} (size : Nat) (xs : List β) : List (List β) :=
  (List.range (xs.length / size)).map fun i => (xs.drop (size * i)).take size

def schedule (block : List UInt8) : Array UInt32 :=
  (List.range 64).foldl
    (fun words t => words.push (rotateLeft
      (words.getD (t + 13) 0 ^^^ words.getD (t + 8) 0 ^^^ words.getD (t + 2) 0 ^^^
        words.getD t 0) 1))
    ((parts 4 block).map fun bytes => UInt32.ofNat (ofBigEndian bytes)).toArray

def round (t : Nat) (b c d : UInt32) : UInt32 × UInt32 :=
  if t < 20 then ((b &&& c) ||| (~~~b &&& d), 0x5A827999)
  else if t < 40 then (b ^^^ c ^^^ d, 0x6ED9EBA1)
  else if t < 60 then ((b &&& c) ||| (b &&& d) ||| (c &&& d), 0x8F1BBCDC)
  else (b ^^^ c ^^^ d, 0xCA62C1D6)

def step (s : State) (word : UInt32 × Nat) : State :=
  let (mixed, constant) := round word.2 s.b s.c s.d
  ⟨rotateLeft s.a 5 + mixed + s.e + word.1 + constant, s.a, rotateLeft s.b 30, s.c, s.d⟩

def absorb (s : State) (block : List UInt8) : State :=
  let t := (schedule block).toList.zipIdx.foldl step s
  ⟨s.a + t.a, s.b + t.b, s.c + t.c, s.d + t.d, s.e + t.e⟩

def digest (message : List UInt8) : List UInt8 :=
  let s := (parts 64 (pad message)).foldl absorb start
  [s.a, s.b, s.c, s.d, s.e].flatMap fun word => bigEndian 4 word.toNat

end PlaneSketch.Sha1

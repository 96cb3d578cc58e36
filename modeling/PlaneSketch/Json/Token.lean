import PlaneSketch.Numeral

/-! The tokens of JSON text. Reading stops at the first character that starts no token and leaves
`bad` there, so that what came before can still be judged. -/
namespace PlaneSketch.Json

/-- A string that holds half of a surrogate pair stands for no text: it is `str none`. -/
inductive Token
  | openArray
  | closeArray
  | openObject
  | closeObject
  | comma
  | colon
  | null
  | bool (value : Bool)
  | num (value : Numeral)
  | str (text : Option String)
  | bad
  deriving DecidableEq, Repr

def isBlank (c : Char) : Bool := c == ' ' || c == '\t' || c == '\n' || c == '\r'

inductive Piece
  | char (c : Char)
  | half (unit : Nat)

def hexDigit? (c : Char) : Option Nat :=
  if '0' ≤ c ∧ c ≤ '9' then some (c.toNat - '0'.toNat)
  else if 'a' ≤ c ∧ c ≤ 'f' then some (c.toNat - 'a'.toNat + 10)
  else if 'A' ≤ c ∧ c ≤ 'F' then some (c.toNat - 'A'.toNat + 10)
  else none

def hexValue? (ds : List Char) : Option Nat :=
  ds.foldlM (fun n c => (hexDigit? c).map (16 * n + ·)) 0

def Piece.ofUnit (unit : Nat) : Piece :=
  if 0xD800 ≤ unit ∧ unit < 0xE000 then .half unit else .char (Char.ofNat unit)

def escaped? : Char → Option Char
  | '"' => some '"'
  | '\\' => some '\\'
  | '/' => some '/'
  | 'b' => some (Char.ofNat 8)
  | 'f' => some (Char.ofNat 12)
  | 'n' => some '\n'
  | 'r' => some '\r'
  | 't' => some '\t'
  | _ => none

/-- The pieces up to the closing quote, and what follows it. -/
def readPieces : List Char → Option (List Piece × List Char)
  | [] => none
  | '"' :: cs => some ([], cs)
  | '\\' :: 'u' :: a :: b :: c :: d :: cs => do
    let unit ← hexValue? [a, b, c, d]
    let (pieces, rest) ← readPieces cs
    return (.ofUnit unit :: pieces, rest)
  | '\\' :: e :: cs => do
    let c ← escaped? e
    let (pieces, rest) ← readPieces cs
    return (.char c :: pieces, rest)
  | c :: cs =>
    if c.toNat < 0x20 then none else do
      let (pieces, rest) ← readPieces cs
      return (.char c :: pieces, rest)

/-- The text of the pieces; the halves have to come in pairs, high before low. -/
def spell : List Piece → Option (List Char)
  | [] => some []
  | .char c :: rest => (spell rest).map (c :: ·)
  | .half high :: .half low :: rest =>
    if high < 0xDC00 ∧ 0xDC00 ≤ low then
      (spell rest).map (Char.ofNat (0x10000 + (high - 0xD800) * 0x400 + (low - 0xDC00)) :: ·)
    else none
  | .half _ :: _ => none

def following? : List Char → List Char → Option (List Char)
  | [], cs => some cs
  | c :: word, d :: cs => if c = d then following? word cs else none
  | _ :: _, [] => none

/-- The token that starts with `c`, and what follows it. -/
def Token.read (c : Char) (cs : List Char) : Option (Token × List Char) :=
  match c with
  | '[' => some (.openArray, cs)
  | ']' => some (.closeArray, cs)
  | '{' => some (.openObject, cs)
  | '}' => some (.closeObject, cs)
  | ',' => some (.comma, cs)
  | ':' => some (.colon, cs)
  | '"' => (readPieces cs).map fun (pieces, rest) => (.str ((spell pieces).map String.ofList), rest)
  | 'n' => (following? ['u', 'l', 'l'] cs).map (.null, ·)
  | 't' => (following? ['r', 'u', 'e'] cs).map (.bool true, ·)
  | 'f' => (following? ['a', 'l', 's', 'e'] cs).map (.bool false, ·)
  | c => (Numeral.read (c :: cs)).map fun (n, rest) => (.num n, rest)

private theorem readPieces_length {cs rest : List Char} {pieces : List Piece}
    (h : readPieces cs = some (pieces, rest)) : rest.length < cs.length := by
  fun_induction readPieces cs generalizing pieces with
  | case1 => cases h
  | case2 cs =>
    cases h
    exact Nat.lt_succ_self _
  | case3 a b c d cs ih =>
    simp only [Option.bind_eq_bind, Option.bind_eq_some_iff] at h
    obtain ⟨_, -, ⟨inner, after⟩, read, found⟩ := h
    cases found
    have shorter : after.length < cs.length := ih read
    simp only [List.length_cons]
    omega
  | case4 e cs _ ih =>
    simp only [Option.bind_eq_bind, Option.bind_eq_some_iff] at h
    obtain ⟨_, -, ⟨inner, after⟩, read, found⟩ := h
    cases found
    have shorter : after.length < cs.length := ih read
    simp only [List.length_cons]
    omega
  | case5 => cases h
  | case6 c cs _ _ _ _ ih =>
    simp only [Option.bind_eq_bind, Option.bind_eq_some_iff] at h
    obtain ⟨⟨inner, after⟩, read, found⟩ := h
    cases found
    exact Nat.lt_succ_of_lt (ih read)

theorem following_length {word cs rest : List Char} (h : following? word cs = some rest) :
    rest.length ≤ cs.length := by
  induction word generalizing cs with
  | nil =>
    cases h
    exact Nat.le_refl _
  | cons c word ih =>
    cases cs with
    | nil => cases h
    | cons d cs =>
      rw [following?] at h
      split at h
      · exact Nat.le_succ_of_le (ih h)
      · cases h

private theorem word_length {word cs rest : List Char} {t token : Token}
    (h : (following? word cs).map (t, ·) = some (token, rest)) : rest.length ≤ cs.length := by
  obtain ⟨_, found, eq⟩ := Option.map_eq_some_iff.mp h
  cases eq
  exact following_length found

private theorem Token.read_length {c : Char} {cs rest : List Char} {token : Token}
    (h : Token.read c cs = some (token, rest)) : rest.length ≤ cs.length := by
  unfold Token.read at h
  split at h
  case h_7 =>
    obtain ⟨_, found, eq⟩ := Option.map_eq_some_iff.mp h
    cases eq
    exact Nat.le_of_lt (readPieces_length found)
  case h_8 => exact word_length h
  case h_9 => exact word_length h
  case h_10 => exact word_length h
  case h_11 =>
    obtain ⟨_, found, eq⟩ := Option.map_eq_some_iff.mp h
    cases eq
    exact Nat.le_of_lt_succ (Numeral.read_length found)
  all_goals
    cases h
    exact Nat.le_refl _

def lex (cs : List Char) : List Token :=
  match _start : cs.dropWhile isBlank with
  | [] => []
  | c :: rest =>
    match _next : Token.read c rest with
    | none => [.bad]
    | some (token, rest') => token :: lex rest'
termination_by cs.length
decreasing_by
  have dropped := (List.dropWhile_sublist isBlank (l := cs)).length_le
  have taken := Token.read_length _next
  simp only [_start, List.length_cons] at dropped
  omega

/-- A quote, a backslash and the control characters are written as escapes, all else as it is. -/
def escape (c : Char) : List Char :=
  match c with
  | '"' => ['\\', '"']
  | '\\' => ['\\', '\\']
  | '\n' => ['\\', 'n']
  | '\r' => ['\\', 'r']
  | '\t' => ['\\', 't']
  | c =>
    if c.toNat = 8 then ['\\', 'b']
    else if c.toNat = 12 then ['\\', 'f']
    else if c.toNat < 0x20 then
      ['\\', 'u', '0', '0', (c.toNat / 16).digitChar, (c.toNat % 16).digitChar]
    else [c]

def quoted (text : String) : List Char := '"' :: text.toList.flatMap escape ++ ['"']

def Token.chars : Token → List Char
  | .openArray => ['[']
  | .closeArray => [']']
  | .openObject => ['{']
  | .closeObject => ['}']
  | .comma => [',']
  | .colon => [':']
  | .null => "null".toList
  | .bool true => "true".toList
  | .bool false => "false".toList
  | .num n => n.chars
  | .str (some text) => quoted text
  | .str none => []
  | .bad => []

end PlaneSketch.Json

import PlaneSketch.Json.Token
import PlaneSketch.Numeral.Layout

/-! JSON values that are written. The text of a value is the text of its tokens, without blanks. -/
namespace PlaneSketch

inductive Json
  | null
  | bool (value : Bool)
  | num (value : Numeral)
  | str (text : String)
  | arr (items : List Json)
  | obj (members : List (String × Json))
  deriving Inhabited

namespace Json

mutual

def tokens : Json → List Token
  | .null => [.null]
  | .bool b => [.bool b]
  | .num n => [.num n]
  | .str s => [.str (some s)]
  | .arr items => .openArray :: itemTokens items ++ [.closeArray]
  | .obj members => .openObject :: memberTokens members ++ [.closeObject]

def itemTokens : List Json → List Token
  | [] => []
  | item :: rest => tokens item ++ moreItemTokens rest

def moreItemTokens : List Json → List Token
  | [] => []
  | item :: rest => .comma :: tokens item ++ moreItemTokens rest

def memberTokens : List (String × Json) → List Token
  | [] => []
  | (key, value) :: rest => .str (some key) :: .colon :: tokens value ++ moreMemberTokens rest

def moreMemberTokens : List (String × Json) → List Token
  | [] => []
  | (key, value) :: rest =>
    .comma :: .str (some key) :: .colon :: tokens value ++ moreMemberTokens rest

end

def text (j : Json) : String := String.ofList (j.tokens.flatMap Token.chars)

def nat (n : Nat) : Json := .num (Numeral.ofNat n)

/-- JSON has no form for a double that is not finite: it is written as null. -/
def float (x : Float) : Json := if x.isFinite then .num (Numeral.ofFloat x) else .null

end Json

end PlaneSketch

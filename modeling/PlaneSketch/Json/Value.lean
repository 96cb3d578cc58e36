import PlaneSketch.Json
import PlaneSketch.Json.Tree

/-! The value of a whole JSON text. -/
namespace PlaneSketch.Json

mutual

def Tree.value? : Tree → Option Json
  | .null => some .null
  | .bool b => some (.bool b)
  | .num n => some (.num n)
  | .str (some s) => some (.str s)
  | .arr items true => (Tree.itemValues? items).map .arr
  | .obj members true => (Tree.memberValues? members).map .obj
  | _ => none

def Tree.itemValues? : List Tree → Option (List Json)
  | [] => some []
  | item :: rest => do return (← item.value?) :: (← Tree.itemValues? rest)

def Tree.memberValues? : List (Option String × Tree) → Option (List (String × Json))
  | [] => some []
  | (key, value) :: rest => do return (← key, ← value.value?) :: (← Tree.memberValues? rest)

end

def ofText? (text : String) : Option Json :=
  let reading := read text
  if reading.ended then reading.tree.value? else none

def get? : Json → String → Option Json
  | .obj members, key => (members.find? fun member => member.1 == key).map Prod.snd
  | _, _ => none

end PlaneSketch.Json

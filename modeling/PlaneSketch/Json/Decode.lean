import PlaneSketch.Json.Tree

/-! Decoding trees into typed values. Decoders meet the parts of a text in its order, so the refusal
is that of the first fault: text that is malformed, or JSON of another shape than asked for. -/
namespace PlaneSketch.Json

inductive Refusal
  | malformed
  | mismatched
  deriving DecidableEq, Repr

abbrev Decoder (β : Type) := Tree → Except Refusal β

namespace Decoder

/-- The refusal of a value of the wrong kind. A string or number is read before its kind is
judged; an array or object is judged by its first character. -/
def misfit : Tree → Refusal
  | .cut => .malformed
  | .str none => .malformed
  | .num n => if n.toFloat?.isSome then .mismatched else .malformed
  | _ => .mismatched

def bool : Decoder Bool
  | .bool b => .ok b
  | t => .error (misfit t)

def float : Decoder Float
  | .num n => (n.toFloat?).elim (.error .malformed) .ok
  | t => .error (misfit t)

def nat : Decoder Nat
  | .num n => (n.toNat?).elim (.error (misfit (.num n))) .ok
  | t => .error (misfit t)

def string : Decoder String
  | .str (some text) => .ok text
  | t => .error (misfit t)

def optional {β : Type} (decoder : Decoder β) : Decoder (Option β)
  | .null => .ok none
  | t => (decoder t).map some

def unit : Decoder Unit
  | .null => .ok ()
  | t => .error (misfit t)

def closing (closed : Bool) : Except Refusal Unit := if closed then .ok () else .error .malformed

def list {β : Type} (decoder : Decoder β) : Decoder (List β)
  | .arr items closed => do
    let values ← items.mapM decoder
    closing closed
    return values
  | t => .error (misfit t)

/-- Exactly two values; a third one is already malformed. -/
def pair {β : Type} (decoder : Decoder β) : Decoder (β × β)
  | .arr items closed => do
    let values ← (items.take 2).mapM decoder
    if 2 < items.length then throw .malformed
    closing closed
    match values with
    | [first, second] => return (first, second)
    | _ => throw .mismatched
  | t => .error (misfit t)

variable {σ β : Type}

/-- Take in one member of an object: a known field once, an unknown one only as far as its value
has to be whole. -/
def member (fields : List String) (field : String → Tree → σ → Except Refusal σ)
    (seen : σ × List String) (entry : Option String × Tree) : Except Refusal (σ × List String) :=
  match entry with
  | (none, _) => .error .malformed
  | (some key, value) =>
    if key ∈ seen.2 then .error .mismatched
    else if key ∈ fields then (field key value seen.1).map fun state => (state, key :: seen.2)
    else if value.complete then .ok seen
    else .error .malformed

/-- A record: an object whose fields come in any order, or an array of its fields in the given
order. `field` stores one field, `finish` demands what may not be missing. -/
def record (fields : List String) (field : String → Tree → σ → Except Refusal σ) (start : σ)
    (finish : σ → Except Refusal β) : Decoder β
  | .obj members closed => do
    let (state, _) ← members.foldlM (member fields field) (start, [])
    closing closed
    finish state
  | .arr items closed => do
    let state ← (fields.zip items).foldlM (fun state entry => field entry.1 entry.2 state) start
    if fields.length < items.length then throw .malformed
    closing closed
    finish state
  | t => .error (misfit t)

def required (value : Option β) : Except Refusal β := value.elim (.error .mismatched) .ok

/-- A choice: a bare name, or an object whose only key is a name and whose value is what the name
calls for. -/
def choice (bare : String → Except Refusal β) (named : String → Except Refusal (Decoder β)) :
    Decoder β
  | .str (some name) => bare name
  | .obj ((some name, value) :: rest) closed => do
    let decoder ← named name
    let result ← decoder value
    closing (rest.isEmpty && closed)
    return result
  | _ => .error .malformed

end Decoder

def decodeFirst {β : Type} (decoder : Decoder β) (text : String) : Except Refusal β :=
  decoder (read text).tree

/-- Decode a text that has to end after its value. -/
def decode {β : Type} (decoder : Decoder β) (text : String) : Except Refusal β := do
  let reading := read text
  let value ← decoder reading.tree
  Decoder.closing reading.ended
  return value

end PlaneSketch.Json

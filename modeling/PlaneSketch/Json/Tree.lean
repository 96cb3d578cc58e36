import PlaneSketch.Json.Token

/-! What a JSON text says as far as it can be read. Where the text breaks off or goes wrong the
tree is `cut`, and every array and object around that place stays open; a decoder that works through
the tree in the order of the text can then tell which fault comes first. -/
namespace PlaneSketch.Json

/-- A key or string that is no text is `none`. -/
inductive Tree
  | null
  | bool (value : Bool)
  | num (value : Numeral)
  | str (text : Option String)
  | arr (items : List Tree) (closed : Bool)
  | obj (members : List (Option String × Tree)) (closed : Bool)
  | cut
  deriving Inhabited

/-- A container whose next value is still to be read; what it holds so far is reversed. -/
inductive Frame
  | item (before : List Tree)
  | member (before : List (Option String × Tree)) (key : Option String)

def Frame.close (frame : Frame) (last : Tree) (closed : Bool) : Tree :=
  match frame with
  | .item before => .arr (last :: before).reverse closed
  | .member before key => .obj ((key, last) :: before).reverse closed

/-- The tree of a text that goes wrong inside `last`, in the given containers. -/
def abandon (stack : List Frame) (last : Tree) : Tree :=
  stack.foldl (fun inner frame => frame.close inner false) last

inductive Expecting
  /-- A value, in the given containers. -/
  | value (stack : List Frame)
  /-- A value or the end of an empty array. -/
  | firstItem (stack : List Frame)
  /-- What follows a finished value. -/
  | afterValue (stack : List Frame) (last : Tree)
  /-- A key; the end of the object is fine too if nothing was read of it. -/
  | nextKey (stack : List Frame) (before : List (Option String × Tree)) (first : Bool)
  | colon (stack : List Frame) (before : List (Option String × Tree)) (key : Option String)

/-- The tree of a text and whether the text ends there. -/
structure Reading where
  tree : Tree
  ended : Bool

def Expecting.abandon : Expecting → Tree
  | .value stack => Json.abandon stack .cut
  | .firstItem stack => Json.abandon stack (.arr [] false)
  | .afterValue [] last => last
  | .afterValue (frame :: stack) last => Json.abandon stack (frame.close last false)
  | .nextKey stack before _ => Json.abandon stack (.obj before.reverse false)
  | .colon stack before key => Json.abandon stack (.obj ((key, .cut) :: before).reverse false)

def startValue (stack : List Frame) : Token → Option Expecting
  | .null => some (.afterValue stack .null)
  | .bool b => some (.afterValue stack (.bool b))
  | .num n => some (.afterValue stack (.num n))
  | .str s => some (.afterValue stack (.str s))
  | .openArray => some (.firstItem stack)
  | .openObject => some (.nextKey stack [] true)
  | _ => none

def Expecting.next : Expecting → Token → Option Expecting
  | .value stack, token => startValue stack token
  | .firstItem stack, .closeArray => some (.afterValue stack (.arr [] true))
  | .firstItem stack, token => startValue (.item [] :: stack) token
  | .afterValue (.item before :: stack) last, .comma => some (.value (.item (last :: before) :: stack))
  | .afterValue (.item before :: stack) last, .closeArray =>
    some (.afterValue stack ((Frame.item before).close last true))
  | .afterValue (.member before key :: stack) last, .comma =>
    some (.nextKey stack ((key, last) :: before) false)
  | .afterValue (.member before key :: stack) last, .closeObject =>
    some (.afterValue stack ((Frame.member before key).close last true))
  | .nextKey stack before _, .str key => some (.colon stack before key)
  | .nextKey stack _ true, .closeObject => some (.afterValue stack (.obj [] true))
  | .colon stack before key, .colon => some (.value (.member before key :: stack))
  | _, _ => none

def grow : Expecting → List Token → Reading
  | .afterValue [] last, rest => ⟨last, rest.isEmpty⟩
  | state, [] => ⟨state.abandon, true⟩
  | state, token :: rest =>
    match state.next token with
    | some state => grow state rest
    | none => ⟨state.abandon, true⟩

def read (text : String) : Reading := grow (.value []) (lex text.toList)

namespace Tree

mutual

def complete : Tree → Bool
  | .arr items closed => completeItems items && closed
  | .obj members closed => completeMembers members && closed
  | .cut => false
  | _ => true

def completeItems : List Tree → Bool
  | [] => true
  | item :: rest => complete item && completeItems rest

def completeMembers : List (Option String × Tree) → Bool
  | [] => true
  | (_, value) :: rest => complete value && completeMembers rest

end

mutual

/-- Whether the value was read to its end, every string in it is a text, every number is in range
and at most `depth` containers are open at once. -/
def plain (depth : Nat) : Tree → Bool
  | .num n => n.toFloat?.isSome
  | .str text => text.isSome
  | .arr items closed => 0 < depth && plainItems (depth - 1) items && closed
  | .obj members closed => 0 < depth && plainMembers (depth - 1) members && closed
  | .cut => false
  | _ => true

def plainItems (depth : Nat) : List Tree → Bool
  | [] => true
  | item :: rest => plain depth item && plainItems depth rest

def plainMembers (depth : Nat) : List (Option String × Tree) → Bool
  | [] => true
  | (key, value) :: rest => key.isSome && plain depth value && plainMembers depth rest

end

end Tree

end PlaneSketch.Json

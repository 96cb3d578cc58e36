import PlaneSketch.Json
import PlaneSketch.Json.Tree
import PlaneSketch.Proofs.Json.Token

/-! The text of a value is read as the tree of that value. -/
namespace PlaneSketch.Json

open Numeral (Stops Continues)

mutual

def tree : Json → Tree
  | .null => .null
  | .bool b => .bool b
  | .num n => .num n
  | .str s => .str (some s)
  | .arr items => .arr (itemTrees items) true
  | .obj members => .obj (memberTrees members) true

def itemTrees : List Json → List Tree
  | [] => []
  | item :: rest => tree item :: itemTrees rest

def memberTrees : List (String × Json) → List (Option String × Tree)
  | [] => []
  | (key, value) :: rest => (some key, tree value) :: memberTrees rest

end

theorem itemTrees_eq (items : List Json) : itemTrees items = items.map tree := by
  induction items with
  | nil => rfl
  | cons item items ih => rw [itemTrees, ih, List.map_cons]

mutual

def Written : Json → Prop
  | .num n => n.Spelled
  | .arr items => ItemsWritten items
  | .obj members => MembersWritten members
  | _ => True

def ItemsWritten : List Json → Prop
  | [] => True
  | item :: rest => Written item ∧ ItemsWritten rest

def MembersWritten : List (String × Json) → Prop
  | [] => True
  | (_, value) :: rest => Written value ∧ MembersWritten rest

end

theorem itemsWritten_of_forall {items : List Json} (written : ∀ item ∈ items, item.Written) :
    ItemsWritten items := by
  induction items with
  | nil => trivial
  | cons item items ih =>
    obtain ⟨first, others⟩ := List.forall_mem_cons.mp written
    exact ⟨first, ih others⟩

section Tokens

variable {rest : List Token}

private theorem exists_tokens (j : Json) : ∃ token tokens, j.tokens = token :: tokens ∧
    token ≠ .closeArray ∧ ∀ stack, ∃ state, startValue stack token = some state := by
  cases j <;> exact ⟨_, _, rfl, Token.noConfusion, fun _ => ⟨_, rfl⟩⟩

private theorem grow_firstItem (j : Json) (stack : List Frame) :
    grow (.firstItem stack) (j.tokens ++ rest) = grow (.value (.item [] :: stack)) (j.tokens ++ rest) := by
  obtain ⟨token, tokens, start, other, starts⟩ := exists_tokens j
  obtain ⟨state, next⟩ := starts (.item [] :: stack)
  have first : (Expecting.firstItem stack).next token = some state := by
    rw [← next]
    cases token <;> first | rfl | exact absurd rfl other
  have value : (Expecting.value (.item [] :: stack)).next token = some state := next
  rw [start, List.cons_append, grow, first, grow, value]
  · exact fun _ => Expecting.noConfusion
  · exact fun _ => Expecting.noConfusion

mutual

/-- Reading the tokens of a value leads to its tree, inside any containers. -/
theorem grow_tokens (j : Json) (stack : List Frame) (rest : List Token) :
    grow (.value stack) (j.tokens ++ rest) = grow (.afterValue stack j.tree) rest := by
  match j with
  | .null => rw [tokens, tree]; rfl
  | .bool b => rw [tokens, tree]; rfl
  | .num n => rw [tokens, tree]; rfl
  | .str s => rw [tokens, tree]; rfl
  | .arr [] => rw [tokens, tree]; rfl
  | .arr (item :: items) =>
    rw [tokens, tree, itemTokens, itemTrees]
    change grow (.firstItem stack) ((tokens item ++ moreItemTokens items) ++ [.closeArray] ++ rest) = _
    rw [List.append_assoc, List.append_assoc, grow_firstItem, grow_tokens, List.singleton_append,
      grow_moreItems]
    rfl
  | .obj [] => rw [tokens, tree]; rfl
  | .obj ((key, value) :: members) =>
    rw [tokens, tree, memberTokens, memberTrees]
    change grow (.value (.member [] (some key) :: stack))
      ((tokens value ++ moreMemberTokens members) ++ [.closeObject] ++ rest) = _
    rw [List.append_assoc, List.append_assoc, grow_tokens, List.singleton_append, grow_moreMembers]
    rfl

theorem grow_moreItems (items : List Json) (stack : List Frame) (before : List Tree) (last : Tree)
    (rest : List Token) :
    grow (.afterValue (.item before :: stack) last) (moreItemTokens items ++ .closeArray :: rest) =
      grow (.afterValue stack (.arr ((last :: before).reverse ++ itemTrees items) true)) rest := by
  match items with
  | [] =>
    rw [moreItemTokens, itemTrees, List.append_nil]
    rfl
  | item :: items =>
    rw [moreItemTokens, itemTrees]
    change grow (.value (.item (last :: before) :: stack))
      ((tokens item ++ moreItemTokens items) ++ .closeArray :: rest) = _
    rw [List.append_assoc, grow_tokens, grow_moreItems, List.reverse_cons (a := tree item),
      List.append_assoc]
    rfl

theorem grow_moreMembers (members : List (String × Json)) (stack : List Frame)
    (before : List (Option String × Tree)) (key : Option String) (last : Tree) (rest : List Token) :
    grow (.afterValue (.member before key :: stack) last)
        (moreMemberTokens members ++ .closeObject :: rest) =
      grow (.afterValue stack (.obj (((key, last) :: before).reverse ++ memberTrees members) true))
        rest := by
  match members with
  | [] =>
    rw [moreMemberTokens, memberTrees, List.append_nil]
    rfl
  | (next, value) :: members =>
    rw [moreMemberTokens, memberTrees]
    change grow (.value (.member ((key, last) :: before) (some next) :: stack))
      ((tokens value ++ moreMemberTokens members) ++ .closeObject :: rest) = _
    rw [List.append_assoc, grow_tokens, grow_moreMembers, List.reverse_cons (a := (some next, tree value)),
      List.append_assoc]
    rfl

end

end Tokens

section Text

def spelling (tokens : List Token) : List Char := tokens.flatMap Token.chars

theorem spelling_cons (token : Token) (tokens : List Token) :
    spelling (token :: tokens) = token.chars ++ spelling tokens := List.flatMap_cons

theorem spelling_append (first second : List Token) :
    spelling (first ++ second) = spelling first ++ spelling second := List.flatMap_append

def Token.apart : Token → Bool
  | .num _ | .str none | .bad => false
  | _ => true

theorem lex_spelling (token : Token) (apart : token.apart = true) (tokens : List Token)
    (rest : List Char) : lex (spelling (token :: tokens) ++ rest) = token :: lex (spelling tokens ++ rest) := by
  rw [spelling_cons, List.append_assoc]
  apply lex_chars
  · cases token with
    | num n => cases apart
    | bad => cases apart
    | str text =>
      cases text with
      | none => cases apart
      | some text => rfl
    | _ => trivial
  · rintro n rfl
    cases apart

theorem stops_cons {c : Char} (rest : List Char) (other : ¬Continues c) : Stops Continues (c :: rest) := by
  intro d first
  cases first
  exact other

theorem not_continues : ¬Continues ',' ∧ ¬Continues ']' ∧ ¬Continues '}' := by
  simp [Continues, Char.isDigit]

theorem stops_moreItems (items : List Json) (rest : List Char) :
    Stops Continues (spelling (moreItemTokens items ++ [.closeArray]) ++ rest) := by
  cases items with
  | nil => exact stops_cons _ not_continues.2.1
  | cons item items => exact stops_cons _ not_continues.1

theorem stops_moreMembers (members : List (String × Json)) (rest : List Char) :
    Stops Continues (spelling (moreMemberTokens members ++ [.closeObject]) ++ rest) := by
  cases members with
  | nil => exact stops_cons _ not_continues.2.2
  | cons member members => exact stops_cons _ not_continues.1

mutual

theorem lex_tokens (j : Json) (written : j.Written) (rest : List Char) (stops : Stops Continues rest) :
    lex (spelling j.tokens ++ rest) = j.tokens ++ lex rest := by
  match j, written with
  | .null, _ => exact lex_spelling .null rfl [] rest
  | .bool b, _ => exact lex_spelling (.bool b) rfl [] rest
  | .num n, written =>
    rw [tokens, spelling_cons, List.append_assoc]
    exact lex_chars written fun _ _ => stops
  | .str s, _ => exact lex_spelling (.str (some s)) rfl [] rest
  | .arr [], _ =>
    exact (lex_spelling .openArray rfl [.closeArray] rest).trans
      (congrArg _ (lex_spelling .closeArray rfl [] rest))
  | .arr (item :: items), ⟨first, others⟩ =>
    rw [tokens, itemTokens, List.cons_append, lex_spelling .openArray rfl,
      List.append_assoc, spelling_append, List.append_assoc,
      lex_tokens item first _ (stops_moreItems items rest), lex_moreItems items others]
    simp
  | .obj [], _ =>
    exact (lex_spelling .openObject rfl [.closeObject] rest).trans
      (congrArg _ (lex_spelling .closeObject rfl [] rest))
  | .obj ((key, value) :: members), ⟨first, others⟩ =>
    rw [tokens, memberTokens, List.cons_append, lex_spelling .openObject rfl,
      List.cons_append, List.cons_append, List.cons_append, List.cons_append,
      lex_spelling (.str (some key)) rfl, lex_spelling .colon rfl,
      List.append_assoc, spelling_append, List.append_assoc,
      lex_tokens value first _ (stops_moreMembers members rest), lex_moreMembers members others]
    simp

theorem lex_moreItems (items : List Json) (written : ItemsWritten items) (rest : List Char) :
    lex (spelling (moreItemTokens items ++ [.closeArray]) ++ rest) =
      moreItemTokens items ++ .closeArray :: lex rest := by
  match items, written with
  | [], _ => exact lex_spelling .closeArray rfl [] rest
  | item :: items, ⟨first, others⟩ =>
    rw [moreItemTokens, List.cons_append, List.cons_append, lex_spelling .comma rfl,
      List.append_assoc, spelling_append, List.append_assoc,
      lex_tokens item first _ (stops_moreItems items rest), lex_moreItems items others]
    simp

theorem lex_moreMembers (members : List (String × Json)) (written : MembersWritten members)
    (rest : List Char) :
    lex (spelling (moreMemberTokens members ++ [.closeObject]) ++ rest) =
      moreMemberTokens members ++ .closeObject :: lex rest := by
  match members, written with
  | [], _ => exact lex_spelling .closeObject rfl [] rest
  | (key, value) :: members, ⟨first, others⟩ =>
    rw [moreMemberTokens, List.cons_append, List.cons_append, List.cons_append, List.cons_append,
      List.cons_append, List.cons_append, lex_spelling .comma rfl,
      lex_spelling (.str (some key)) rfl, lex_spelling .colon rfl,
      List.append_assoc, spelling_append, List.append_assoc,
      lex_tokens value first _ (stops_moreMembers members rest), lex_moreMembers members others]
    simp

end

/-- The text of a value is read as its tree and ends there. -/
theorem read_text {j : Json} (written : j.Written) : read j.text = ⟨j.tree, true⟩ := by
  have lexed := lex_tokens j written [] (fun _ none => nomatch none)
  have grown := grow_tokens j [] []
  rw [lex_nil, List.append_nil, List.append_nil] at lexed
  rw [List.append_nil] at grown
  rw [read, text, String.toList_ofList]
  change grow (.value []) (lex (spelling j.tokens)) = _
  rw [lexed, grown]
  rfl

end Text

end PlaneSketch.Json

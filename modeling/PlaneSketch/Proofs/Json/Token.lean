import PlaneSketch.Json.Token
import PlaneSketch.Proofs.Numeral

/-! Tokens are read back from their characters. Only a numeral needs to be told from what follows it. -/
namespace PlaneSketch.Json

open Numeral (Stops Continues)

section Strings

variable {rest : List Char}

def afterChar (c : Char) : Option (List Piece × List Char) → Option (List Piece × List Char) :=
  Option.map fun (pieces, rest) => (.char c :: pieces, rest)

private theorem readPieces_plain {c : Char} (large : 0x20 ≤ c.toNat) (quote : c ≠ '"') (slash : c ≠ '\\') :
    readPieces (c :: rest) = afterChar c (readPieces rest) := by
  rw [readPieces.eq_5 c rest quote (fun _ _ _ _ _ same _ => slash same)
    (fun _ _ same _ => slash same), if_neg (by omega), afterChar]
  cases readPieces rest <;> rfl

private theorem readPieces_short {e c : Char} (other : e ≠ 'u') (short : escaped? e = some c) :
    readPieces ('\\' :: e :: rest) = afterChar c (readPieces rest) := by
  rw [readPieces.eq_4 _ _ (fun _ _ _ _ _ same _ => other same), short, afterChar]
  cases readPieces rest <;> rfl

private theorem hexValue?_control :
    ∀ n < 0x20, hexValue? ['0', '0', (n / 16).digitChar, (n % 16).digitChar] = some n := by
  decide

private theorem readPieces_control {c : Char} (small : c.toNat < 0x20) :
    readPieces ('\\' :: 'u' :: '0' :: '0' :: (c.toNat / 16).digitChar :: (c.toNat % 16).digitChar :: rest) =
      afterChar c (readPieces rest) := by
  have unit : Piece.ofUnit c.toNat = .char c := by
    rw [Piece.ofUnit, if_neg (by omega), Char.ofNat_toNat]
  rw [readPieces, hexValue?_control c.toNat small, afterChar]
  cases readPieces rest with
  | none => rfl
  | some found =>
    change some (Piece.ofUnit c.toNat :: found.1, found.2) = _
    rw [unit]
    rfl

private theorem readPieces_escape (c : Char) :
    readPieces (escape c ++ rest) = afterChar c (readPieces rest) := by
  unfold escape
  split
  case h_1 => exact readPieces_short (by decide) rfl
  case h_2 => exact readPieces_short (by decide) rfl
  case h_3 => exact readPieces_short (by decide) rfl
  case h_4 => exact readPieces_short (by decide) rfl
  case h_5 => exact readPieces_short (by decide) rfl
  case h_6 quote slash _ _ _ =>
    split
    case isTrue back =>
      rw [← Char.ofNat_toNat c, back]
      exact readPieces_short (by decide) rfl
    case isFalse =>
      split
      case isTrue feed =>
        rw [← Char.ofNat_toNat c, feed]
        exact readPieces_short (by decide) rfl
      case isFalse =>
        split
        case isTrue small => exact readPieces_control small
        case isFalse large => exact readPieces_plain (Nat.le_of_not_lt large) quote slash

private theorem readPieces_quoted (cs : List Char) :
    readPieces (cs.flatMap escape ++ '"' :: rest) = some (cs.map .char, rest) := by
  induction cs with
  | nil => rfl
  | cons c cs ih =>
    rw [List.flatMap_cons, List.append_assoc, readPieces_escape, ih]
    rfl

private theorem spell_chars (cs : List Char) : spell (cs.map .char) = some cs := by
  induction cs with
  | nil => rfl
  | cons c cs ih =>
    rw [List.map_cons, spell, ih]
    rfl

end Strings

def Token.Written : Token → Prop
  | .num n => n.Spelled
  | .str text => text.isSome = true
  | .bad => False
  | _ => True

section Lex

variable {rest : List Char}

theorem lex_nil : lex [] = [] := by
  rw [lex]
  rfl

private theorem lex_cons {c : Char} {cs : List Char} {token : Token} (shown : isBlank c = false)
    (found : Token.read c cs = some (token, rest)) : lex (c :: cs) = token :: lex rest := by
  have start : (c :: cs).dropWhile isBlank = c :: cs := List.dropWhile_cons_of_neg (by simp [shown])
  rw [lex]
  split
  case h_1 none =>
    rw [start] at none
    cases none
  case h_2 same =>
    rw [start] at same
    cases same
    split
    case h_1 none =>
      rw [found] at none
      cases none
    case h_2 same =>
      rw [found] at same
      cases same
      rfl

private theorem exists_chars {n : Numeral} (spelled : n.Spelled) :
    ∃ c cs, n.chars = c :: cs ∧ (c = '-' ∨ c.isDigit = true) := by
  obtain ⟨negative, whole, fraction, exponent⟩ := n
  cases negative with
  | true => exact ⟨'-', _, rfl, .inl rfl⟩
  | false =>
    cases whole with
    | nil => exact absurd rfl spelled.whole.one
    | cons c whole => exact ⟨c, _, rfl, .inr (spelled.whole.digits c List.mem_cons_self)⟩

private theorem read_numeral {c : Char} (cs : List Char) (start : c = '-' ∨ c.isDigit = true) :
    isBlank c = false ∧
      Token.read c cs = (Numeral.read (c :: cs)).map fun (n, rest) => (.num n, rest) := by
  have other (d : Char) (none : ¬(d = '-' ∨ d.isDigit = true)) : c ≠ d := by
    rintro rfl
    exact none start
  constructor
  · simp [isBlank, other ' ' (by decide), other '\t' (by decide), other '\n' (by decide),
      other '\r' (by decide)]
  · unfold Token.read
    split
    case h_11 => rfl
    all_goals exact absurd rfl (other _ (by decide))

/-- A token is read back, whatever follows that does not go on with a numeral. -/
theorem lex_chars {token : Token} (written : token.Written)
    (stops : ∀ n, token = .num n → Stops Continues rest) :
    lex (token.chars ++ rest) = token :: lex rest := by
  cases token with
  | openArray => exact lex_cons rfl rfl
  | closeArray => exact lex_cons rfl rfl
  | openObject => exact lex_cons rfl rfl
  | closeObject => exact lex_cons rfl rfl
  | comma => exact lex_cons rfl rfl
  | colon => exact lex_cons rfl rfl
  | null => exact lex_cons rfl rfl
  | bool b =>
    cases b with
    | false => exact lex_cons rfl rfl
    | true => exact lex_cons rfl rfl
  | num n =>
    obtain ⟨c, cs, start, first⟩ := exists_chars written
    obtain ⟨shown, read⟩ := read_numeral (cs ++ rest) first
    have found : Numeral.read (c :: (cs ++ rest)) = some (n, rest) := by
      rw [← List.cons_append, ← start]
      exact Numeral.read_chars written (stops n rfl)
    rw [Token.chars, start, List.cons_append]
    apply lex_cons shown
    rw [read, found]
    rfl
  | str text =>
    cases text with
    | none => cases written
    | some text =>
      rw [Token.chars, quoted, List.cons_append, List.cons_append, List.append_assoc]
      apply lex_cons rfl
      change (readPieces (text.toList.flatMap escape ++ '"' :: rest)).map _ = _
      rw [readPieces_quoted, Option.map_some]
      simp only
      rw [spell_chars, Option.map_some, String.ofList_toList]
  | bad => cases written

end Lex

end PlaneSketch.Json

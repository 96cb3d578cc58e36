import PlaneSketch.EntityId
import Mathlib.Algebra.BigOperators.Group.List.Basic
import Mathlib.Algebra.GroupWithZero.Nat

/-! Ids are read back from their texts. -/
namespace PlaneSketch.EntityId

open Json

section Hyphens

private theorem length_hyphenate (ns : List Nat) (n : Nat) (cs : List Char)
    (length : cs.length = (n :: ns).sum) : (hyphenate (n :: ns) cs).length = cs.length + ns.length := by
  induction ns generalizing n cs with
  | nil =>
    rw [List.sum_cons, List.sum_nil, Nat.add_zero] at length
    simp [hyphenate, length]
  | cons m ns ih =>
    rw [List.sum_cons] at length
    have rest : (cs.drop n).length = (m :: ns).sum := by
      rw [List.length_drop]
      omega
    rw [hyphenate, List.length_append, List.length_cons, ih _ _ rest]
    · simp only [List.length_take, List.length_drop, List.length_cons]
      omega
    · simp

private theorem unhyphenate?_hyphenate (ns : List Nat) (n : Nat) (cs : List Char)
    (length : cs.length = (n :: ns).sum) : unhyphenate? (n :: ns) (hyphenate (n :: ns) cs) = some cs := by
  induction ns generalizing n cs with
  | nil =>
    rw [List.sum_cons, List.sum_nil, Nat.add_zero] at length
    simp [hyphenate, unhyphenate?, length]
  | cons m ns ih =>
    rw [List.sum_cons] at length
    have group : (cs.take n).length = n := by
      rw [List.length_take]
      omega
    have rest : (cs.drop n).length = (m :: ns).sum := by
      rw [List.length_drop]
      omega
    have hyphen : (cs.take n ++ '-' :: hyphenate (m :: ns) (cs.drop n))[n]? = some '-' := by
      rw [List.getElem?_append_right (Nat.le_of_eq group), group, Nat.sub_self]
      rfl
    have first : (cs.take n ++ '-' :: hyphenate (m :: ns) (cs.drop n)).take n = cs.take n := by
      rw [List.take_append_of_le_length (Nat.le_of_eq group.symm), List.take_take, Nat.min_self]
    have others : (cs.take n ++ '-' :: hyphenate (m :: ns) (cs.drop n)).drop (n + 1) =
        hyphenate (m :: ns) (cs.drop n) := by
      rw [List.drop_append, group, List.drop_of_length_le (by omega), Nat.add_sub_cancel_left]
      rfl
    rw [hyphenate, unhyphenate?, if_pos, first, others, ih _ _ rest, Option.map_some, List.take_append_drop]
    · refine ⟨?_, hyphen⟩
      rw [List.length_append, group, List.length_cons]
      omega
    · simp
    · simp

end Hyphens

section Digits

private theorem hexDigit?_digitChar : ∀ d < 16, hexDigit? d.digitChar = some d := by decide

private theorem hexValue?_leading (n k : Nat) (few : k ≤ 32) :
    hexValue? ((List.range k).map fun i => (n / Nat.pow 16 (31 - i) % 16).digitChar) =
      some (n / 16 ^ (32 - k) % 16 ^ k) := by
  induction k with
  | zero => simp [hexValue?, Nat.mod_one]
  | succ k ih =>
    have places : 32 - (k + 1) = 31 - k := by omega
    have shift : n / 16 ^ (32 - k) = n / 16 ^ (31 - k) / 16 := by
      rw [Nat.div_div_eq_div_mul, ← Nat.pow_succ]
      congr 2
      omega
    have digit : hexDigit? (n / Nat.pow 16 (31 - k) % 16).digitChar = some (n / 16 ^ (31 - k) % 16) :=
      hexDigit?_digitChar _ (Nat.mod_lt _ (by decide))
    have next : 16 * (n / 16 ^ (32 - k) % 16 ^ k) + n / 16 ^ (31 - k) % 16 =
        n / 16 ^ (31 - k) % 16 ^ (k + 1) := by
      rw [shift, Nat.pow_succ', Nat.mod_mul, Nat.add_comm]
    rw [hexValue?] at ih ⊢
    rw [List.range_succ, List.map_append, List.foldlM_append, ih (Nat.le_of_succ_le few), places, ← next]
    change (hexDigit? (n / Nat.pow 16 (31 - k) % 16).digitChar).map _ >>= pure = _
    rw [digit]
    rfl

theorem length_hexDigits (id : EntityId) : id.hexDigits.length = 32 := by simp [hexDigits]

private theorem ofHex?_hexDigits (id : EntityId) : ofHex? id.hexDigits = some id := by
  have whole := hexValue?_leading id.bits.toNat 32 (Nat.le_refl _)
  have small : id.bits.toNat < 16 ^ 32 := id.bits.isLt
  rw [Nat.sub_self, Nat.pow_zero, Nat.div_one, Nat.mod_eq_of_lt small] at whole
  rw [ofHex?, if_pos id.length_hexDigits, hexDigits, whole, Option.map_some, BitVec.ofNat_toNat,
    BitVec.setWidth_eq]

end Digits

theorem ofText?_text (id : EntityId) : ofText? id.text = some id := by
  have length : id.hexDigits.length = groups.sum := id.length_hexDigits
  have total := length_hyphenate _ _ _ length
  have joined := unhyphenate?_hyphenate _ _ _ length
  rw [length] at total
  change (hyphenate groups id.hexDigits).length = 36 at total
  rw [ofText?, text, String.toList_ofList]
  rw [if_neg (by omega), if_pos total, ofHyphenated?]
  change (unhyphenate? groups (hyphenate groups id.hexDigits)).bind ofHex? = _
  rw [groups, joined, Option.bind_some, ofHex?_hexDigits]

end PlaneSketch.EntityId

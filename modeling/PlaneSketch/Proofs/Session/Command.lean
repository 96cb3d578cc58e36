import PlaneSketch.Proofs.Document.Decode
import PlaneSketch.Proofs.Session.Execute
import PlaneSketch.Session.Command

/-! Parsing the text that hands a document back. -/
namespace PlaneSketch

section Blanks

private theorem trimBlanks_eq {c e : Char} (cs : List Char) (first : isBlank c = false)
    (last : isBlank e = false) : trimBlanks (c :: cs ++ [e]) = c :: cs ++ [e] := by
  have start : (c :: cs ++ [e]).dropWhile isBlank = c :: cs ++ [e] :=
    List.dropWhile_cons_of_neg (by simp [first])
  have reversed : (c :: cs ++ [e]).reverse = e :: (c :: cs).reverse := List.reverse_concat ..
  rw [trimBlanks, start, reversed, List.dropWhile_cons_of_neg (by simp [last]), ← reversed,
    List.reverse_reverse]

end Blanks

namespace Document

private theorem exists_text (d : Document Float) : ∃ cs, d.toJson.text.toList = cs ++ ['}'] := by
  rw [Json.text, String.toList_ofList, toJson, Json.tokens, List.flatMap_append]
  exact ⟨_, rfl⟩

end Document

namespace Command

open Json

private theorem payload_eq_ok {β : Type} {name : Payload} {decoder : Decoder β} {cs : List Char} {value : β}
    (success : payload name decoder cs = .ok value) : ∃ t, decoder t = .ok value := by
  have decoded := mapError_eq_ok.mp success
  obtain ⟨read, found, rest⟩ := bind_eq_ok.mp decoded
  obtain ⟨-, -, same⟩ := bind_eq_ok.mp rest
  cases same
  exact ⟨_, found⟩

theorem accepted_of_parse {message : String} {incoming : Document Float}
    (parsed : parse message = .ok (.load incoming)) : incoming.Accepted := by
  unfold parse at parsed
  simp only at parsed
  split at parsed
  case h_1 =>
    obtain ⟨d, found, same⟩ := map_eq_ok.mp parsed
    cases same
    obtain ⟨t, decoded⟩ := payload_eq_ok found
    exact Document.small_of_decode decoded
  case h_2 =>
    obtain ⟨_, -, same⟩ := map_eq_ok.mp parsed
    cases same
  case h_3 =>
    obtain ⟨_, -, same⟩ := map_eq_ok.mp parsed
    cases same
  case h_4 =>
    split at parsed <;> cases parsed

theorem parse_load {d : Document Float} (fits : d.Fits) :
    parse ("LOAD:" ++ d.toJson.text) =
      if d.finite then .ok (.load d) else .error (.malformedPayload .load) := by
  obtain ⟨cs, ends⟩ := d.exists_text
  have whole : trimBlanks ("LOAD:" ++ d.toJson.text).toList = "LOAD:".toList ++ d.toJson.text.toList := by
    rw [String.toList_append, ends]
    exact trimBlanks_eq (['O', 'A', 'D', ':'] ++ cs) rfl rfl
  have decoded : payload .load (Document.decode 0) d.toJson.text.toList =
      if d.finite then .ok d else .error (.malformedPayload .load) := by
    rw [payload, String.ofList_toList]
    change (Document.ofText d.toJson.text).mapError _ = _
    rw [Document.ofText_text fits]
    split <;> rfl
  have named : following? "LOAD:".toList ("LOAD:".toList ++ d.toJson.text.toList) =
      some d.toJson.text.toList := rfl
  simp only [parse, whole, named, decoded]
  split <;> rfl

theorem parse_get : parse "GET" = .ok .get := rfl

end Command

namespace Document

/-- A document with finite numbers is read back from its own text, alone or where it is handed back. -/
theorem text_reads_back {d : Document Float} (fits : d.Fits) (finite : d.finite = true) :
    ofText d.toJson.text = .ok d ∧ Command.parse ("LOAD:" ++ d.toJson.text) = .ok (.load d) := by
  constructor
  · rw [ofText_text fits, if_pos finite]
  · rw [Command.parse_load fits, if_pos finite]

def assorted : Document Float where
  cells := [⟨0, true⟩, ⟨1, false⟩, ⟨-2.5, false⟩, ⟨1e300, false⟩, ⟨0.1, true⟩, ⟨-0.0, false⟩, ⟨5e-324, false⟩]
  figures := [⟨⟨1⟩, .point ⟨0, 1⟩⟩, ⟨⟨2⟩, .line ⟨⟨0, 2⟩, ⟨3, 1⟩⟩⟩, ⟨⟨3⟩, .circle ⟨⟨4, 5⟩, 6⟩⟩,
    ⟨⟨-1⟩, .arc ⟨⟨0, 1⟩, 2, ⟨3, 4⟩, ⟨5, 6⟩⟩⟩]
  relations := [⟨.midpoint, [.figure ⟨⟨1⟩, none⟩, .figure ⟨⟨2⟩, none⟩]⟩,
    ⟨.equalValues, [.bare ⟨⟨1⟩, 0⟩, .bare ⟨⟨-1⟩, 6⟩]⟩,
    ⟨.colinearPoints, [.figure ⟨⟨1⟩, none⟩, .figure ⟨⟨2⟩, some 1⟩, .figure ⟨⟨-1⟩, some 2⟩]⟩,
    ⟨.pointOnCircle, [.figure ⟨⟨3⟩, some 0⟩, .figure ⟨⟨-1⟩, none⟩]⟩,
    ⟨.equalLength, [.figure ⟨⟨2⟩, none⟩, .figure ⟨⟨2⟩, none⟩]⟩,
    ⟨.tangentLine, [.figure ⟨⟨2⟩, none⟩, .figure ⟨⟨3⟩, none⟩]⟩]
  config := { Config.standard with maxIterations := 7, tolerance := 1e-9 }

theorem assorted_reads_back :
    ofText assorted.toJson.text = .ok assorted ∧
      Command.parse ("LOAD:" ++ assorted.toJson.text) = .ok (.load assorted) := by
  have small : ∀ {n : Nat}, n ≤ 7 → Small n := fun few => Nat.lt_of_le_of_lt few (by decide)
  have indices : ∀ r ∈ assorted.figures, ∀ i ∈ r.shape.toList, i ≤ 7 := by decide
  have fits : assorted.Fits := by
    refine ⟨?_, ?_, ?_⟩
    · intro r member
      rw [Figure.fits_iff]
      exact fun i inside => small (indices r member i inside)
    · simp [assorted, OperandRef.Fits, small]
    · exact ⟨small (Nat.le_refl 7), by decide +kernel, by decide +kernel, by decide +kernel⟩
  exact text_reads_back fits (by decide +kernel)

end Document

end PlaneSketch

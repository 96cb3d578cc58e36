import PlaneSketch.Proofs.Document.Encode

/-! Documents that are accepted have numbers that can be written again. -/
namespace PlaneSketch

open Json Json.Decoder

section Optional

variable {β : Type} {P : β → Prop}

def Given (P : β → Prop) (value : Option β) : Prop := ∀ b ∈ value, P b

theorem given_none : Given P none := fun _ missing => nomatch missing

theorem given_some {b : β} (holds : P b) : Given P (some b) := by
  intro c same
  cases same
  exact holds

theorem holds_of_required {value : Option β} {b : β} (given : Given P value)
    (success : required value = .ok b) : P b := by
  cases value with
  | none => cases success
  | some =>
    cases success
    exact given _ rfl

end Optional

private theorem Point.fits_of_decode {t : Tree} {p : Point Nat} (success : Point.decode t = .ok p) :
    p.Fits := by
  obtain ⟨⟨x, y⟩, ⟨left, right⟩, finished⟩ := record_invariant
    (P := fun state => Given Small state.1 ∧ Given Small state.2) success ⟨given_none, given_none⟩ (by
      intro key t ⟨x, y⟩ next stored ⟨left, right⟩
      simp only at stored
      split at stored
      · obtain ⟨n, read, same⟩ := bind_eq_ok.mp stored
        cases same
        exact ⟨given_some (lt_of_nat read), right⟩
      · obtain ⟨n, read, same⟩ := bind_eq_ok.mp stored
        cases same
        exact ⟨left, given_some (lt_of_nat read)⟩)
  obtain ⟨first, here, finished⟩ := bind_eq_ok.mp finished
  obtain ⟨second, there, same⟩ := bind_eq_ok.mp finished
  cases same
  exact ⟨holds_of_required left here, holds_of_required right there⟩

namespace Figure

structure Fields.Fits (fields : Fields) : Prop where
  x : Given Small fields.x
  y : Given Small fields.y
  r : Given Small fields.r
  c : Given Point.Fits fields.c
  p0 : Given Point.Fits fields.p0
  p1 : Given Point.Fits fields.p1

private theorem Fields.Fits.read {key : String} {t : Tree} {fields next : Fields} (fits : fields.Fits)
    (stored : Fields.read key t fields = .ok next) : next.Fits := by
  unfold Fields.read at stored
  split at stored
  all_goals
    obtain ⟨_, read, same⟩ := bind_eq_ok.mp stored
    cases same
  · exact { fits with x := given_some (lt_of_nat read) }
  · exact { fits with y := given_some (lt_of_nat read) }
  · exact { fits with r := given_some (lt_of_nat read) }
  · exact { fits with c := given_some (Point.fits_of_decode read) }
  · exact { fits with p0 := given_some (Point.fits_of_decode read) }
  · exact { fits with p1 := given_some (Point.fits_of_decode read) }

private theorem fits_of_ofFields {kind : FigureKind} {fields : Fields} {shape : Figure Nat}
    (fits : fields.Fits) (success : ofFields kind fields = .ok shape) : shape.Fits := by
  cases kind with
  | point =>
    obtain ⟨_, x, success⟩ := bind_eq_ok.mp success
    obtain ⟨_, y, same⟩ := bind_eq_ok.mp success
    cases same
    exact ⟨holds_of_required fits.x x, holds_of_required fits.y y⟩
  | line =>
    obtain ⟨_, p0, success⟩ := bind_eq_ok.mp success
    obtain ⟨_, p1, same⟩ := bind_eq_ok.mp success
    cases same
    exact ⟨holds_of_required fits.p0 p0, holds_of_required fits.p1 p1⟩
  | circle =>
    obtain ⟨_, c, success⟩ := bind_eq_ok.mp success
    obtain ⟨_, r, same⟩ := bind_eq_ok.mp success
    cases same
    exact ⟨holds_of_required fits.c c, holds_of_required fits.r r⟩
  | arc =>
    obtain ⟨_, c, success⟩ := bind_eq_ok.mp success
    obtain ⟨_, r, success⟩ := bind_eq_ok.mp success
    obtain ⟨_, p0, success⟩ := bind_eq_ok.mp success
    obtain ⟨_, p1, same⟩ := bind_eq_ok.mp success
    cases same
    exact ⟨holds_of_required fits.c c, holds_of_required fits.r r, holds_of_required fits.p0 p0,
      holds_of_required fits.p1 p1⟩

private theorem fits_of_decodeFields {kind : FigureKind} {t : Tree} {shape : Figure Nat}
    (success : decodeFields kind t = .ok shape) : shape.Fits := by
  rw [decodeFields, mapError_eq_ok] at success
  obtain ⟨fields, fits, finished⟩ := record_invariant (P := Fields.Fits) success
    ⟨given_none, given_none, given_none, given_none, given_none, given_none⟩
    (fun key t state next stored holds => Fields.Fits.read holds stored)
  exact fits_of_ofFields fits finished

private theorem fits_of_decode {room : Nat} {t : Tree} {shape : Figure Nat}
    (success : Figure.decode room t = .ok shape) : shape.Fits := by
  cases t with
  | obj members closed =>
    cases room with
    | zero => cases success
    | succ room =>
      obtain ⟨⟨kind, fields⟩, -, success⟩ := bind_eq_ok.mp success
      obtain ⟨-, -, success⟩ := bind_eq_ok.mp success
      obtain ⟨kind, -, success⟩ := bind_eq_ok.mp success
      exact fits_of_decodeFields success
  | arr items closed =>
    cases room with
    | zero => cases success
    | succ room =>
      cases items with
      | nil => cases closed <;> cases success
      | cons first rest =>
        obtain ⟨kind, -, success⟩ := bind_eq_ok.mp success
        split at success
        · cases success
        · obtain ⟨-, -, success⟩ := bind_eq_ok.mp success
          exact fits_of_decodeFields success
  | _ => cases success

end Figure

private theorem FigureRecord.fits_of_decode {depth : Nat} {t : Tree} {record : FigureRecord}
    (success : FigureRecord.decode depth t = .ok record) : record.shape.Fits := by
  obtain ⟨⟨id, shape⟩, fits, finished⟩ := record_invariant (P := fun state => Given Figure.Fits state.2)
    success given_none (by
      intro key t ⟨id, shape⟩ next stored fits
      simp only at stored
      split at stored
      · obtain ⟨_, -, same⟩ := bind_eq_ok.mp stored
        cases same
        exact fits
      · obtain ⟨_, read, same⟩ := bind_eq_ok.mp stored
        cases same
        exact given_some (Figure.fits_of_decode read))
  obtain ⟨_, -, finished⟩ := bind_eq_ok.mp finished
  obtain ⟨_, there, same⟩ := bind_eq_ok.mp finished
  cases same
  exact holds_of_required fits there

theorem Config.small_standard : Small (standard : Config Float).maxIterations :=
  show 1000 < twoTo 64 by decide

private theorem Config.small_of_decode {t : Tree} {config : Config Float}
    (success : Config.decode t = .ok config) : Small config.maxIterations := by
  obtain ⟨state, small, finished⟩ := record_invariant
    (P := fun state : Config Float => Small state.maxIterations) success small_standard (by
      intro key t state next stored small
      split at stored
      all_goals
        obtain ⟨_, read, same⟩ := bind_eq_ok.mp stored
        cases same
      · exact lt_of_nat read
      all_goals exact small)
  cases finished
  exact small

namespace Document

theorem small_of_decode {depth : Nat} {t : Tree} {d : Document Float}
    (success : Document.decode depth t = .ok d) :
    (∀ r ∈ d.figures, r.shape.Fits) ∧ Small d.config.maxIterations := by
  obtain ⟨fields, ⟨figures, passes⟩, finished⟩ := record_invariant
    (P := fun fields : Fields => Given (fun records => ∀ r ∈ records, r.shape.Fits) fields.figures ∧
      Small fields.config.maxIterations) success ⟨given_none, Config.small_standard⟩ (by
      intro key t fields next stored ⟨figures, passes⟩
      split at stored
      all_goals
        obtain ⟨_, read, same⟩ := bind_eq_ok.mp stored
        cases same
      · exact ⟨figures, passes⟩
      · refine ⟨given_some ?_, passes⟩
        intro r member
        obtain ⟨item, decoded⟩ := exists_of_list read r member
        exact FigureRecord.fits_of_decode decoded
      · exact ⟨figures, passes⟩
      · exact ⟨figures, Config.small_of_decode read⟩)
  obtain ⟨_, -, finished⟩ := bind_eq_ok.mp finished
  obtain ⟨_, there, same⟩ := bind_eq_ok.mp finished
  cases same
  exact ⟨holds_of_required figures there, passes⟩

end Document

end PlaneSketch

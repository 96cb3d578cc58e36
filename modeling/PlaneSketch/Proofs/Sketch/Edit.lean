import PlaneSketch.Proofs.Sketch.Solve

/-! What the edits of a sketch change, cell by cell. The cells that an edit writes get their values
from it alone; every other cell is changed by the solve that follows, and only if it is free. -/
namespace PlaneSketch

private theorem Figure.xs_subset (f : Figure Variable) : f.xs ⊆ f.toList := by
  cases f <;> simp [xs, toList, Point.toList, Line.toList, Circle.toList, Arc.toList]

private theorem Figure.ys_subset (f : Figure Variable) : f.ys ⊆ f.toList := by
  cases f <;> simp [ys, toList, Point.toList, Line.toList, Circle.toList, Arc.toList]

variable {α : Type}

namespace Store

variable (s : Store α)

theorem Live.exists_valueAt {s : Store α} {v : Variable} (live : s.Live v) :
    ∃ x, s.valueAt (s.cellOf v) = some x := by
  rw [valueAt, Array.getElem?_eq_getElem live]
  exact ⟨_, rfl⟩

theorem constantAt_updateCell (cell : Nat) {f : Cell α → Cell α}
    (keeps : ∀ c, (f c).constant = c.constant) (i : Nat) :
    (s.updateCell cell f).constantAt i = s.constantAt i := by
  rw [constantAt, constantAt, getElem?_updateCell]
  split
  · rw [Option.map_map]
    exact congrArg (Option.map · _) (funext keeps)
  · rfl

@[simp] theorem constantAt_setValue (v : Variable) (value : α) (i : Nat) :
    (s.setValue v value).constantAt i = s.constantAt i := by
  rw [setValue, constantAt_updateCell]
  exact fun _ => rfl

theorem valueAt_setValue (v : Variable) (value : α) (i : Nat) :
    (s.setValue v value).valueAt i =
      if s.cellOf v = i then (s.valueAt i).map fun _ => value else s.valueAt i := by
  rw [valueAt, valueAt, setValue, getElem?_updateCell]
  split
  · rw [Option.map_map, Option.map_map]
    rfl
  · rfl

/-- What an edit may change apart from the values of the cells `written`: values of free cells, and,
if it `pins`, the flags of those cells. -/
structure Edited (written : List Nat) (pins : Bool) (s t : Store α) : Prop where
  names : SameNames s t
  constants : ∀ i, t.constantAt i = (s.constantAt i).map (· || pins && decide (i ∈ written))
  fixed : ∀ i ∉ written, s.constantAt i = some true → t.valueAt i = s.valueAt i

section Edited

variable {s} {t u : Store α} {written : List Nat} {pins : Bool}

theorem Edited.of_constants_eq (names : SameNames s t) (flags : ∀ i, t.constantAt i = s.constantAt i)
    (values : ∀ i ∉ written, t.valueAt i = s.valueAt i) : Edited written false s t :=
  ⟨names, fun i => by simp [flags i], fun i apart _ => values i apart⟩

theorem Edited.refl (s : Store α) : Edited [] false s s :=
  .of_constants_eq (.refl s) (fun _ => rfl) fun _ _ => rfl

theorem Edited.trans_moved {vs : List Variable} (edit : Edited written pins s t) (solve : Moved vs t u) :
    Edited written pins s u where
  names := edit.names.trans solve.names
  constants i := (solve.constants i).trans (edit.constants i)
  fixed i apart constant := by
    have still : t.constantAt i = some true := by simp [edit.constants i, constant]
    exact (solve.fixed i still).trans (edit.fixed i apart constant)

private theorem Edited.setConstant {v : Variable} (edit : Edited [s.cellOf v] false s t) :
    Edited [s.cellOf v] true s (t.setConstant v true) where
  names := edit.names.trans (t.sameNames_updateCell _ _)
  constants i := by
    rw [constantAt_setConstant, edit.names.cellOf, edit.constants]
    by_cases here : s.cellOf v = i
    · simp [here]
    · simp [here, Ne.symm here]
  fixed i apart constant := (t.valueAt_setConstant v true i).trans (edit.fixed i apart constant)

end Edited

private theorem edited_setValue (s : Store α) (v : Variable) (value : α) :
    Edited [s.cellOf v] false s (s.setValue v value) := by
  refine .of_constants_eq (s.sameNames_updateCell _ _) (s.constantAt_setValue v value) ?_
  intro i apart
  rw [valueAt_setValue, if_neg fun here => apart (List.mem_singleton.mpr here.symm)]

variable [Scalar α]

@[simp] theorem constantAt_shift (v : Variable) (delta : α) (i : Nat) :
    (s.shift v delta).constantAt i = s.constantAt i := by
  rw [shift, constantAt_updateCell]
  exact fun _ => rfl

private theorem valueAt_shift {v : Variable} {i : Nat} (apart : s.cellOf v ≠ i) (delta : α) :
    (s.shift v delta).valueAt i = s.valueAt i := by
  rw [valueAt, valueAt, shift, getElem?_updateCell, if_neg apart]

theorem foldl_shift (vs : List Variable) (delta : α) (i : Nat) :
    let t := vs.foldl (fun s v => s.shift v delta) s
    t.constantAt i = s.constantAt i ∧ ((∀ v ∈ vs, s.cellOf v ≠ i) → t.valueAt i = s.valueAt i) := by
  induction vs generalizing s with
  | nil => exact ⟨rfl, fun _ => rfl⟩
  | cons v vs ih =>
    obtain ⟨flags, values⟩ := ih (s.shift v delta)
    refine ⟨flags.trans (s.constantAt_shift v delta i), fun apart => ?_⟩
    obtain ⟨first, rest⟩ := List.forall_mem_cons.mp apart
    exact (values rest).trans (s.valueAt_shift first delta)

@[simp] theorem constantAt_shiftCells (vs : List Variable) (delta : α) (i : Nat) :
    (s.shiftCells vs delta).constantAt i = s.constantAt i :=
  (s.foldl_shift (s.distinct vs) delta i).1

theorem valueAt_shiftCells {vs : List Variable} {i : Nat} (apart : ∀ v ∈ vs, s.cellOf v ≠ i)
    (delta : α) : (s.shiftCells vs delta).valueAt i = s.valueAt i :=
  (s.foldl_shift (s.distinct vs) delta i).2 fun v first => apart v (s.distinct_subset vs first)

@[simp] theorem constantAt_translate (f : Figure Variable) (start goal : Point α) (i : Nat) :
    (s.translate f start goal).constantAt i = s.constantAt i := by
  rw [translate, constantAt_shiftCells, constantAt_shiftCells]

private theorem valueAt_translate {f : Figure Variable} {i : Nat} (apart : ∀ v ∈ f.toList, s.cellOf v ≠ i)
    (start goal : Point α) : (s.translate f start goal).valueAt i = s.valueAt i := by
  let along := s.shiftCells f.xs (goal.x - start.x)
  have names : SameNames s along := s.sameNames_shiftCells f.xs _
  have across : ∀ v ∈ f.ys, along.cellOf v ≠ i := fun v member => by
    rw [names.cellOf]
    exact apart v (f.ys_subset member)
  exact (along.valueAt_shiftCells across _).trans
    (s.valueAt_shiftCells (fun v member => apart v (f.xs_subset member)) _)

private theorem edited_translate (s : Store α) (f : Figure Variable) (start goal : Point α) :
    Edited (f.toList.map s.cellOf) false s (s.translate f start goal) := by
  refine .of_constants_eq (s.sameNames_translate f start goal) (s.constantAt_translate f start goal) ?_
  intro i apart
  apply s.valueAt_translate
  rintro v member rfl
  exact apart (List.mem_map_of_mem member)

end Store

namespace Sketch

variable [Scalar α] (sketch : Sketch α Relation) (s : Store α)

theorem moved_solve (held : List EntityId) (damped : Bool) :
    Store.Moved (sketch.relations.flatMap Related.owned) s (sketch.solve held damped s).store :=
  (moved_relaxHolding sketch.config sketch.relations _ damped s).1

theorem edited_solve (held : List EntityId) (damped : Bool) :
    Store.Edited [] false s (sketch.solve held damped s).store :=
  (Store.Edited.refl s).trans_moved (sketch.moved_solve s held damped)

theorem edited_pinAndSolve (v : Variable) (value : α) (hold : Bool) :
    let t := (sketch.pinAndSolve v value hold s).store
    Store.Edited [s.cellOf v] hold s t ∧ (s.Live v → t.valueAt (s.cellOf v) = some value) := by
  intro t
  let assigned := s.setValue v value
  have edit := s.edited_setValue v value
  have present : s.Live v → assigned.valueAt (s.cellOf v) = some value := by
    intro live
    obtain ⟨x, found⟩ := live.exists_valueAt
    rw [Store.valueAt_setValue, if_pos rfl, found, Option.map_some]
  cases hold with
  | true =>
    have pinned := edit.setConstant
    have solved := sketch.moved_solve (assigned.setConstant v true) [] true
    refine ⟨pinned.trans_moved solved, fun live => ?_⟩
    have constant : (assigned.setConstant v true).constantAt (s.cellOf v) = some true := by
      rw [pinned.constants, Store.constantAt, Array.getElem?_eq_getElem live]
      simp
    exact (solved.fixed _ constant).trans ((assigned.valueAt_setConstant v true _).trans (present live))
  | false =>
    -- A pin for this solve only is a figure's being held, with one variable in the place of a figure.
    obtain ⟨solved, kept⟩ := moved_relaxHolding sketch.config sketch.relations [v] true assigned
    refine ⟨edit.trans_moved solved, fun live => ?_⟩
    rw [← present live, ← edit.names.cellOf v]
    exact kept v (List.mem_singleton.mpr rfl)

theorem edited_drag {id : EntityId} {start goal : Point α} {damped : Bool} {solve : Solve α}
    (success : sketch.drag id start goal damped s = .ok solve) :
    ∃ figure, sketch.figure? id = some figure ∧
      Store.Edited (figure.toList.map s.cellOf) false s solve.store ∧
      ∀ v ∈ figure.toList, solve.store.valueAt (s.cellOf v) =
        (s.translate figure start goal).valueAt (s.cellOf v) := by
  rw [drag] at success
  split at success
  case h_1 => cases success
  case h_2 figure found =>
    cases success
    have edit := s.edited_translate figure start goal
    obtain ⟨solved, kept⟩ := moved_relaxHolding sketch.config sketch.relations
      (([id].filterMap sketch.figure?).flatMap Figure.toList) damped (s.translate figure start goal)
    refine ⟨figure, found, edit.trans_moved solved, fun v member => ?_⟩
    rw [← edit.names.cellOf v]
    apply kept
    simpa [found] using member

end Sketch

end PlaneSketch

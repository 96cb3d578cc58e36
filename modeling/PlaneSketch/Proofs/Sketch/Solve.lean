import PlaneSketch.Proofs.Solver.Frame

/-! Edits that end in a solve change values and flags, never which variable names which cell. -/
namespace PlaneSketch

variable {α : Type} [Scalar α]

namespace Store

variable (s : Store α)

theorem sameNames_shiftCells (vs : List Variable) (delta : α) : SameNames s (s.shiftCells vs delta) :=
  sameNames_foldl (fun s _ => s.sameNames_updateCell _ _) _ s

theorem sameNames_translate (f : Figure Variable) (start goal : Point α) :
    SameNames s (s.translate f start goal) :=
  (s.sameNames_shiftCells f.xs _).trans (sameNames_shiftCells _ f.ys _)

end Store

namespace Sketch

variable (sketch : Sketch α Relation) (s : Store α)

theorem sameNames_solve (held : List EntityId) (damped : Bool) :
    Store.SameNames s (sketch.solve held damped s).store :=
  (moved_relaxHolding sketch.config sketch.relations _ damped s).1.names

theorem sameNames_pinAndSolve (v : Variable) (value : α) (hold : Bool) :
    Store.SameNames s (sketch.pinAndSolve v value hold s).store := by
  let assigned := s.setValue v value
  have written : Store.SameNames s assigned := s.sameNames_updateCell _ _
  cases hold with
  | true =>
    have pinned : Store.SameNames assigned (assigned.setConstant v true) :=
      assigned.sameNames_updateCell _ _
    exact (written.trans pinned).trans (sketch.sameNames_solve _ [] true)
  | false =>
    let guard := assigned.guardFor [v]
    have held : Store.SameNames s (assigned.hold guard) := written.trans (assigned.sameNames_hold guard)
    have solved := held.trans (sketch.sameNames_solve _ [] true)
    exact solved.trans (Store.sameNames_release _ guard)

theorem sameNames_drag {id : EntityId} {start goal : Point α} {damped : Bool} {solve : Solve α}
    (success : sketch.drag id start goal damped s = .ok solve) : Store.SameNames s solve.store := by
  rw [drag] at success
  split at success
  case h_1 => cases success
  case h_2 figure _ =>
    cases success
    exact (s.sameNames_translate figure start goal).trans (sketch.sameNames_solve _ [id] damped)

end Sketch

end PlaneSketch

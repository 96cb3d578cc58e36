import PlaneSketch.Proofs.Failure
import PlaneSketch.Shape

/-! A figure is its kind and its positions in order; visiting the positions of a figure is visiting
that list. How many positions and parts there are is up to the kind. -/
namespace PlaneSketch

variable {κ μ : Type}

namespace Figure

theorem ext_toList {f g : Figure κ} (kind : f.kind = g.kind) (same : f.toList = g.toList) : f = g := by
  cases f with
  | point p =>
    cases g with
    | point q =>
      cases p
      cases q
      simpa [toList, Point.toList] using same
    | _ => cases kind
  | line l =>
    cases g with
    | line k =>
      obtain ⟨⟨_, _⟩, ⟨_, _⟩⟩ := l
      obtain ⟨⟨_, _⟩, ⟨_, _⟩⟩ := k
      simpa [toList, Line.toList, Point.toList, and_assoc] using same
    | _ => cases kind
  | circle c =>
    cases g with
    | circle d =>
      obtain ⟨⟨_, _⟩, _⟩ := c
      obtain ⟨⟨_, _⟩, _⟩ := d
      simpa [toList, Circle.toList, Point.toList, and_assoc] using same
    | _ => cases kind
  | arc a =>
    cases g with
    | arc b =>
      obtain ⟨⟨_, _⟩, _, ⟨_, _⟩, ⟨_, _⟩⟩ := a
      obtain ⟨⟨_, _⟩, _, ⟨_, _⟩, ⟨_, _⟩⟩ := b
      simpa [toList, Arc.toList, Point.toList, and_assoc] using same
    | _ => cases kind

theorem length_toList_eq {f : Figure κ} {g : Figure μ} (kind : f.kind = g.kind) :
    f.toList.length = g.toList.length := by
  cases f <;> cases g <;> first | rfl | cases kind

theorem length_parts_eq {f : Figure κ} {g : Figure μ} (kind : f.kind = g.kind) :
    f.parts.length = g.parts.length := by
  cases f <;> cases g <;> first | rfl | cases kind

theorem exists_of_length (f : Figure κ) (vs : List μ) (length : vs.length = f.toList.length) :
    ∃ g : Figure μ, g.kind = f.kind ∧ g.toList = vs := by
  cases f with
  | point _ =>
    match vs, length with
    | [x, y], _ => exact ⟨.point ⟨x, y⟩, rfl, rfl⟩
  | line _ =>
    match vs, length with
    | [x, y, z, w], _ => exact ⟨.line ⟨⟨x, y⟩, ⟨z, w⟩⟩, rfl, rfl⟩
  | circle _ =>
    match vs, length with
    | [x, y, r], _ => exact ⟨.circle ⟨⟨x, y⟩, r⟩, rfl, rfl⟩
  | arc _ =>
    match vs, length with
    | [x, y, r, z, w, u, v], _ => exact ⟨.arc ⟨⟨x, y⟩, r, ⟨z, w⟩, ⟨u, v⟩⟩, rfl, rfl⟩

theorem map_mapM {m : Type → Type} [Monad m] [LawfulMonad m] (f : κ → m μ) (figure : Figure κ) :
    (fun built : Figure μ => (built.kind, built.toList)) <$> figure.mapM f =
      (fun vs => (figure.kind, vs)) <$> figure.toList.mapM f := by
  cases figure <;>
    simp [mapM, toList, kind, Point.mapM, Line.mapM, Circle.mapM, Arc.mapM, Point.toList,
      Line.toList, Circle.toList, Arc.toList, List.mapM_cons]

section Failing

variable {σ ε : Type} {f : κ → StateT σ (Except ε) μ} {figure : Figure κ} {s : σ}

private theorem run_mapM (f : κ → StateT σ (Except ε) μ) (figure : Figure κ) (s : σ) :
    ((figure.mapM f s).map fun pair => ((pair.1.kind, pair.1.toList), pair.2)) =
      (figure.toList.mapM f s).map fun pair => ((figure.kind, pair.1), pair.2) :=
  congrFun (map_mapM f figure) s

theorem mapM_eq_ok {built : Figure μ} {s' : σ} :
    figure.mapM f s = .ok (built, s') ↔
      built.kind = figure.kind ∧ figure.toList.mapM f s = .ok (built.toList, s') := by
  have visit := run_mapM f figure s
  constructor
  · intro success
    rw [success] at visit
    obtain ⟨⟨vs, t⟩, listed, same⟩ := map_eq_ok.mp visit.symm
    simp only [Prod.mk.injEq] at same
    obtain ⟨⟨kind, rfl⟩, rfl⟩ := same
    exact ⟨kind.symm, listed⟩
  · rintro ⟨kind, listed⟩
    rw [listed] at visit
    obtain ⟨⟨other, t⟩, success, same⟩ := map_eq_ok.mp visit
    simp only [Prod.mk.injEq] at same
    obtain ⟨⟨sameKind, sameList⟩, rfl⟩ := same
    rw [success, ext_toList (sameKind.trans kind.symm) sameList]

theorem fault?_mapM (f : κ → StateT σ (Except ε) μ) (figure : Figure κ) (s : σ) :
    fault? (figure.mapM f s) = fault? (figure.toList.mapM f s) := by
  rw [← fault?_map (figure.mapM f s), run_mapM, fault?_map]

end Failing

end Figure

end PlaneSketch

import PlaneSketch.Document.Load
import PlaneSketch.Document.Save
import PlaneSketch.Proofs.Relation.Build
import Mathlib.Data.List.Nodup
import Mathlib.Data.List.Pairwise

/-! References to figures and variables. Where ids are distinct, what is recorded of an operand leads
back to something that stands for it; where all variables are distinct too, a reference that leads
to an operand is the only one that is recorded of it. -/
namespace PlaneSketch

section Search

variable {κ μ : Type}

theorem find?_unique {p : κ → Bool} {xs : List κ} {x : κ} (member : x ∈ xs) (holds : p x = true)
    (unique : ∀ y ∈ xs, p y = true → y = x) : xs.find? p = some x := by
  cases found : xs.find? p with
  | none => exact absurd holds (List.find?_eq_none.mp found x member)
  | some y => rw [unique y (List.mem_of_find?_eq_some found) (List.find?_some found)]

theorem findSome?_unique {f : κ → Option μ} {xs : List κ} {x : κ} {y : μ} (member : x ∈ xs)
    (here : f x = some y) (unique : ∀ x' ∈ xs, ∀ y', f x' = some y' → x' = x) :
    xs.findSome? f = some y := by
  cases found : xs.findSome? f with
  | none => simp [List.findSome?_eq_none_iff.mp found x member] at here
  | some z =>
    obtain ⟨x', member', there⟩ := List.exists_of_findSome?_eq_some found
    rw [unique x' member' z there, here] at there
    exact there.symm

theorem findIdx?_unique [BEq κ] [LawfulBEq κ] {xs : List κ} (nodup : xs.Nodup) {i : Nat} {x : κ}
    (here : xs[i]? = some x) : xs.findIdx? (· == x) = some i := by
  obtain ⟨inside, same⟩ := List.getElem?_eq_some_iff.mp here
  rw [List.findIdx?_eq_some_iff_getElem]
  refine ⟨inside, by simp [same], ?_⟩
  intro j before
  have apart : xs[j] ≠ xs[i] := fun equal => by
    have := (nodup.getElem_inj_iff).mp equal
    omega
  simpa [same] using apart

end Search

namespace Figure

theorem toList_subset_of_mem_parts {figure : Figure Variable} {p : Point Variable} (member : p ∈ figure.parts) :
    p.toList ⊆ figure.toList := by
  intro v named
  cases figure with
  | point q => cases member
  | line l =>
    simp only [parts, List.mem_cons, List.not_mem_nil, or_false] at member
    rcases member with rfl | rfl <;> simp [toList, Line.toList, named]
  | circle c =>
    simp only [parts, List.mem_cons, List.not_mem_nil, or_false] at member
    subst member
    simp [toList, Circle.toList, named]
  | arc a =>
    simp only [parts, List.mem_cons, List.not_mem_nil, or_false] at member
    rcases member with rfl | rfl | rfl <;> simp [toList, Arc.toList, named]

private theorem nodup_parts {figure : Figure Variable} (nodup : figure.toList.Nodup) :
    figure.parts.Nodup := by
  have apart : (figure.parts.map Point.x).Nodup := by
    apply List.Nodup.sublist _ nodup
    cases figure with
    | point q => simp [parts]
    | line l =>
      show [l.p0.x, l.p1.x].Sublist [l.p0.x, l.p0.y, l.p1.x, l.p1.y]
      simp
    | circle c =>
      show [c.c.x].Sublist [c.c.x, c.c.y, c.r]
      simp
    | arc a =>
      show [a.c.x, a.p0.x, a.p1.x].Sublist [a.c.x, a.c.y, a.r, a.p0.x, a.p0.y, a.p1.x, a.p1.y]
      simp
  exact apart.of_map

theorem parts_map {κ μ : Type} (f : κ → μ) (figure : Figure κ) :
    (figure.map f).parts = figure.parts.map (Point.map f) := by
  cases figure <;> rfl

end Figure

namespace Sketch

variable {α ρ : Type} {sketch : Sketch α ρ}

theorem standsFor_iff {candidate figure : Figure Variable} :
    standsFor candidate figure = true ↔ Operand.StandsFor (.figure candidate) (.figure figure) := by
  constructor
  · intro stands
    unfold standsFor at stands
    rw [Bool.or_eq_true, beq_iff_eq] at stands
    rcases stands with rfl | stands
    · exact .same _
    · split at stands
      · rw [beq_iff_eq] at stands
        subst stands
        exact .arc _
      · cases stands
  · rintro (_ | _)
    · simp [standsFor]
    · simp [standsFor]

def ids (sketch : Sketch α ρ) : List EntityId := sketch.entities.map Entity.id

def figureVariables (sketch : Sketch α ρ) : List Variable := sketch.entities.flatMap fun e => e.figure.toList

theorem subset_figureVariables {e : Entity} (member : e ∈ sketch.entities) :
    e.figure.toList ⊆ sketch.figureVariables :=
  fun _ named => List.mem_flatMap.mpr ⟨e, member, named⟩

private theorem figure?_eq_some (nodup : sketch.ids.Nodup) {e : Entity} (member : e ∈ sketch.entities) :
    sketch.figure? e.id = some e.figure := by
  have unique : ∀ e' ∈ sketch.entities, (e'.id == e.id) = true → e' = e := by
    intro e' member' same
    exact List.inj_on_of_nodup_map nodup member' member (beq_iff_eq.mp same)
  rw [figure?, find?_unique member (beq_self_eq_true e.id) unique, Option.map_some]

theorem exists_entity {id : EntityId} {figure : Figure Variable} (found : sketch.figure? id = some figure) :
    ∃ e ∈ sketch.entities, e.id = id ∧ e.figure = figure := by
  obtain ⟨e, first, same⟩ := Option.map_eq_some_iff.mp found
  exact ⟨e, List.mem_of_find?_eq_some first, by simpa using List.find?_some first, same⟩

theorem resolveFigure_eq_ok {ref : FigureRef} {figure : Figure Variable} :
    sketch.resolveFigure ref = .ok figure ↔ ∃ whole, sketch.figure? ref.id = some whole ∧
      ((ref.part = none ∧ whole = figure) ∨
        ∃ k p, ref.part = some k ∧ whole.parts[k]? = some p ∧ figure = .point p) := by
  obtain ⟨id, part⟩ := ref
  rw [resolveFigure]
  cases sketch.figure? id with
  | none => simp
  | some whole =>
    cases part with
    | none => simp
    | some k => cases part : whole.parts[k]? <;> simp [part, eq_comm]

theorem resolveVariable_eq_ok {ref : VariableRef} {v : Variable} :
    sketch.resolveVariable ref = .ok v ↔
      ∃ whole, sketch.figure? ref.figure = some whole ∧ whole.toList[ref.index]? = some v := by
  rw [resolveVariable]
  cases sketch.figure? ref.figure with
  | none => simp
  | some whole => cases found : whole.toList[ref.index]? <;> simp [found]

theorem toList_subset_of_resolveOperand {ref : OperandRef} {operand : Operand}
    (success : sketch.resolveOperand ref = .ok operand) : operand.toList ⊆ sketch.figureVariables := by
  cases ref with
  | figure ref =>
    obtain ⟨figure, found, rfl⟩ := map_eq_ok.mp success
    obtain ⟨whole, known, place⟩ := resolveFigure_eq_ok.mp found
    obtain ⟨e, member, -, rfl⟩ := exists_entity known
    rcases place with ⟨-, rfl⟩ | ⟨k, p, -, part, rfl⟩
    · exact subset_figureVariables member
    · have inside := Figure.toList_subset_of_mem_parts (List.mem_of_getElem? part)
      exact List.Subset.trans inside (subset_figureVariables member)
  | bare ref =>
    obtain ⟨v, found, rfl⟩ := map_eq_ok.mp success
    obtain ⟨whole, known, place⟩ := resolveVariable_eq_ok.mp found
    obtain ⟨e, member, -, rfl⟩ := exists_entity known
    intro w named
    cases List.mem_singleton.mp named
    exact subset_figureVariables member (List.mem_of_getElem? place)

/-- What is recorded of an operand leads back to something that stands for it. -/
theorem exists_resolveOperand (nodup : sketch.ids.Nodup) {operand : Operand} {ref : OperandRef}
    (recorded : sketch.recordOperand? operand = some ref) :
    ∃ found, sketch.resolveOperand ref = .ok found ∧ Operand.StandsFor found operand := by
  cases operand with
  | figure f =>
    obtain ⟨ref, found, rfl⟩ := Option.map_eq_some_iff.mp recorded
    rw [findFigure?, Option.or_eq_some_iff] at found
    rcases found with whole | ⟨-, part⟩
    · obtain ⟨e, first, rfl⟩ := Option.map_eq_some_iff.mp whole
      have known := figure?_eq_some nodup (List.mem_of_find?_eq_some first)
      have stands : Operand.StandsFor (.figure e.figure) (.figure f) :=
        standsFor_iff.mp (List.find?_some (p := fun e : Entity => standsFor e.figure f) first)
      refine ⟨.figure e.figure, map_eq_ok.mpr ⟨e.figure, ?_, rfl⟩, stands⟩
      exact resolveFigure_eq_ok.mpr ⟨e.figure, known, .inl ⟨rfl, rfl⟩⟩
    · obtain ⟨e, member, first⟩ := List.exists_of_findSome?_eq_some part
      obtain ⟨k, place, rfl⟩ := Option.map_eq_some_iff.mp first
      obtain ⟨inside, same, -⟩ := List.findIdx?_eq_some_iff_getElem.mp place
      have known := figure?_eq_some nodup member
      have part := List.getElem?_eq_getElem inside
      refine ⟨.figure f, map_eq_ok.mpr ⟨f, ?_, rfl⟩, .same _⟩
      exact resolveFigure_eq_ok.mpr
        ⟨e.figure, known, .inr ⟨k, _, rfl, part, (beq_iff_eq.mp same).symm⟩⟩
  | bare v =>
    obtain ⟨ref, found, rfl⟩ := Option.map_eq_some_iff.mp recorded
    obtain ⟨e, member, first⟩ := List.exists_of_findSome?_eq_some found
    obtain ⟨k, place, rfl⟩ := Option.map_eq_some_iff.mp first
    obtain ⟨inside, same, -⟩ := List.findIdx?_eq_some_iff_getElem.mp place
    have known := figure?_eq_some nodup member
    have here : e.figure.toList[k]? = some v := by
      rw [List.getElem?_eq_getElem inside, beq_iff_eq.mp same]
    refine ⟨.bare v, map_eq_ok.mpr ⟨v, ?_, rfl⟩, .same _⟩
    exact resolveVariable_eq_ok.mpr ⟨e.figure, known, here⟩

section Distinct

variable (nodup : sketch.figureVariables.Nodup)
include nodup

/-- Figures that share a variable are one figure. -/
theorem entity_unique {e e' : Entity} (member : e ∈ sketch.entities) (member' : e' ∈ sketch.entities)
    {v : Variable} (named : v ∈ e.figure.toList) (named' : v ∈ e'.figure.toList) : e = e' := by
  have symm : Std.Symm (Function.onFun List.Disjoint fun e : Entity => e.figure.toList) :=
    ⟨fun _ _ disjoint _ first second => disjoint second first⟩
  by_contra apart
  exact (List.nodup_flatMap.mp nodup).2.forall member member' apart named named'

theorem nodup_toList {e : Entity} (member : e ∈ sketch.entities) : e.figure.toList.Nodup :=
  (List.nodup_flatMap.mp nodup).1 e member

private theorem findFigure?_whole {e : Entity} (member : e ∈ sketch.entities) {f : Figure Variable}
    (stands : Operand.StandsFor (.figure e.figure) (.figure f)) :
    sketch.findFigure? f = some ⟨e.id, none⟩ := by
  obtain ⟨v, named⟩ : ∃ v, v ∈ f.toList := by
    cases f <;> exact ⟨_, List.mem_cons_self⟩
  have unique : ∀ e' ∈ sketch.entities, standsFor e'.figure f = true → e' = e := by
    intro e' member' other
    exact entity_unique nodup member' member ((standsFor_iff.mp other).toList_subset named)
      (stands.toList_subset named)
  rw [findFigure?, find?_unique member (standsFor_iff.mpr stands) unique]
  rfl

private theorem findFigure?_part {e : Entity} (member : e ∈ sketch.entities) {k : Nat} {p : Point Variable}
    (part : e.figure.parts[k]? = some p) : sketch.findFigure? (.point p) = some ⟨e.id, some k⟩ := by
  have inside : p.toList ⊆ e.figure.toList :=
    Figure.toList_subset_of_mem_parts (List.mem_of_getElem? part)
  have named : p.x ∈ p.toList := List.mem_cons_self
  have whole : sketch.entities.find? (fun e => standsFor e.figure (.point p)) = none := by
    rw [List.find?_eq_none]
    intro e' member' stands
    have same : e'.figure = .point p := by
      cases hfig : e'.figure with
      | point q =>
        rw [hfig, standsFor_iff] at stands
        cases stands
        rfl
      | _ =>
        rw [hfig, standsFor_iff] at stands
        cases stands
    have := entity_unique nodup member' member (v := p.x) (by rw [same]; exact named) (inside named)
    subst this
    rw [same] at part
    cases part
  have here : partOf? e.figure (.point p) = some k := by
    have := findIdx?_unique (Figure.nodup_parts (nodup_toList nodup member)) part
    rw [partOf?, ← this]
    congr 1
    funext q
    simp [BEq.beq]
  have unique : ∀ e' ∈ sketch.entities, ∀ ref,
      (partOf? e'.figure (.point p)).map (fun part => (⟨e'.id, some part⟩ : FigureRef)) = some ref →
        e' = e := by
    intro e' member' ref found
    obtain ⟨k', place, -⟩ := Option.map_eq_some_iff.mp found
    obtain ⟨bound, same, -⟩ := List.findIdx?_eq_some_iff_getElem.mp place
    have other : p ∈ e'.figure.parts := by
      have := List.getElem_mem bound
      rwa [Figure.point.inj (beq_iff_eq.mp same)] at this
    exact entity_unique nodup member' member (Figure.toList_subset_of_mem_parts other named)
      (inside named)
  rw [findFigure?, whole, Option.map_none, Option.none_or]
  exact findSome?_unique member (by rw [here]; rfl) unique

/-- What a reference leads to is recorded as that reference, and so is all that it stands for. -/
theorem recordOperand?_of_resolveOperand {ref : OperandRef} {found operand : Operand}
    (success : sketch.resolveOperand ref = .ok found) (stands : Operand.StandsFor found operand) :
    sketch.recordOperand? operand = some ref := by
  cases ref with
  | figure ref =>
    obtain ⟨figure, resolved, rfl⟩ := map_eq_ok.mp success
    obtain ⟨whole, known, place⟩ := resolveFigure_eq_ok.mp resolved
    obtain ⟨e, member, id, rfl⟩ := exists_entity known
    obtain ⟨f, rfl⟩ : ∃ f, operand = .figure f := by
      cases stands <;> exact ⟨_, rfl⟩
    rw [recordOperand?, Option.map_eq_some_iff]
    refine ⟨ref, ?_, rfl⟩
    obtain ⟨refId, refPart⟩ := ref
    cases id
    rcases place with ⟨rfl, rfl⟩ | ⟨k, p, rfl, part, rfl⟩
    · exact findFigure?_whole nodup member stands
    · cases stands
      exact findFigure?_part nodup member part
  | bare ref =>
    obtain ⟨v, resolved, rfl⟩ := map_eq_ok.mp success
    obtain ⟨whole, known, place⟩ := resolveVariable_eq_ok.mp resolved
    obtain ⟨e, member, id, rfl⟩ := exists_entity known
    cases stands
    have here := findIdx?_unique (nodup_toList nodup member) place
    have unique : ∀ e' ∈ sketch.entities, ∀ ref,
        (e'.figure.toList.findIdx? (· == v)).map (fun index => (⟨e'.id, index⟩ : VariableRef)) =
          some ref → e' = e := by
      intro e' member' other found
      obtain ⟨k', place', -⟩ := Option.map_eq_some_iff.mp found
      obtain ⟨bound, same, -⟩ := List.findIdx?_eq_some_iff_getElem.mp place'
      have named : v ∈ e'.figure.toList := by
        have := List.getElem_mem bound
        rwa [beq_iff_eq.mp same] at this
      exact entity_unique nodup member' member named (List.mem_of_getElem? place)
    obtain ⟨figure, index⟩ := ref
    cases id
    rw [recordOperand?, Option.map_eq_some_iff]
    exact ⟨_, findSome?_unique member (by rw [here]; rfl) unique, rfl⟩

end Distinct

end Sketch

end PlaneSketch

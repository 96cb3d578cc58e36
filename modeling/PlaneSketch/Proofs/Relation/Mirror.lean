import PlaneSketch.Proofs.Store.Mirror
import PlaneSketch.Relation

/-! Relations see a store only through the variables they own: on stores that look alike through these
they propose the same changes and have the same error. -/
namespace PlaneSketch

def Delta.map {α : Type} (f : Variable → Variable) (delta : Delta α) : Delta α :=
  ⟨f delta.target, delta.amount⟩

namespace Relation

def map (f : Variable → Variable) : Relation → Relation
  | .midpoint point line => .midpoint (point.map f) (line.map f)
  | .equalValues vs => .equalValues (vs.map f)
  | .colinearPoints points => .colinearPoints (points.map (Point.map f))
  | .pointOnCircle point circle => .pointOnCircle (point.map f) (circle.map f)
  | .equalLength lines => .equalLength (lines.map (Line.map f))
  | .tangentLine line circle => .tangentLine (line.map f) (circle.map f)

theorem kind_map (f : Variable → Variable) (relation : Relation) : (relation.map f).kind = relation.kind := by
  cases relation <;> rfl

end Relation

namespace Store

private theorem orderedPairs_map {β γ : Type} (f : β → γ) (xs : List β) :
    orderedPairs (xs.map f) = (orderedPairs xs).map (Prod.map f f) := by
  simp only [orderedPairs, List.zipIdx_map, List.flatMap_map, List.map_flatMap, List.filter_map,
    List.map_map]
  rfl

section Pairs

variable {β : Type} {xs : List β}

/-- The ordered pairs with the positions of their entries. -/
def placedPairs (xs : List β) : List ((β × Nat) × (β × Nat)) :=
  xs.zipIdx.flatMap fun a => (xs.zipIdx.filter fun b => a.2 != b.2).map (Prod.mk a)

theorem orderedPairs_eq (xs : List β) : orderedPairs xs = (placedPairs xs).map (Prod.map Prod.fst Prod.fst) := by
  simp [orderedPairs, placedPairs, List.map_flatMap, Function.comp_def]

theorem mem_placedPairs {a b : β × Nat} :
    (a, b) ∈ placedPairs xs ↔ xs[a.2]? = some a.1 ∧ xs[b.2]? = some b.1 ∧ a.2 ≠ b.2 := by
  simp [placedPairs, List.mem_zipIdx_iff_getElem?]

theorem mem_orderedPairs {x y : β} :
    (x, y) ∈ orderedPairs xs ↔ ∃ i j : Nat, i ≠ j ∧ xs[i]? = some x ∧ xs[j]? = some y := by
  rw [orderedPairs_eq, List.mem_map]
  constructor
  · rintro ⟨⟨a, b⟩, placed, same⟩
    obtain ⟨rfl, rfl⟩ := Prod.mk.inj same
    obtain ⟨first, second, apart⟩ := mem_placedPairs.mp placed
    exact ⟨a.2, b.2, apart, first, second⟩
  · rintro ⟨i, j, apart, first, second⟩
    exact ⟨((x, i), (y, j)), mem_placedPairs.mpr ⟨first, second, apart⟩, rfl⟩

private theorem mem_of_mem_orderedPairs {pair : β × β} (member : pair ∈ orderedPairs xs) :
    pair.1 ∈ xs ∧ pair.2 ∈ xs := by
  obtain ⟨i, j, -, first, second⟩ := mem_orderedPairs.mp member
  exact ⟨List.mem_of_getElem? first, List.mem_of_getElem? second⟩

end Pairs

theorem findSome?_congr {β γ : Type} {f g : β → Option γ} {xs : List β}
    (same : ∀ x ∈ xs, f x = g x) : xs.findSome? f = xs.findSome? g := by
  induction xs with
  | nil => rfl
  | cons x xs ih =>
    rw [List.findSome?_cons, List.findSome?_cons, same x List.mem_cons_self,
      ih fun y member => same y (List.mem_cons_of_mem _ member)]

namespace Resembles

variable {α : Type} [Scalar α] {back : Variable → Variable} {vs : List Variable} {s t : Store α}

theorem point (looks : Resembles back vs t s) {p : Point Variable} (inside : p.toList ⊆ vs) :
    s.point (p.map back) = t.point p := by
  have x : t.value p.x = s.value (back p.x) := looks.value (inside (by simp [Point.toList]))
  have y : t.value p.y = s.value (back p.y) := looks.value (inside (by simp [Point.toList]))
  rw [Store.point, Store.point, Point.map, Point.map, Point.map, x, y]

theorem line (looks : Resembles back vs t s) {l : Line Variable} (inside : l.toList ⊆ vs) :
    s.line (l.map back) = t.line l := by
  obtain ⟨first, second⟩ := List.append_subset.mp inside
  have p0 := looks.point first
  have p1 := looks.point second
  exact congrArg₂ Line.mk p0 p1

theorem circle (looks : Resembles back vs t s) {c : Circle Variable} (inside : c.toList ⊆ vs) :
    s.circle (c.map back) = t.circle c := by
  obtain ⟨first, second⟩ := List.append_subset.mp inside
  have center := looks.point first
  have radius : t.value c.r = s.value (back c.r) := looks.value (second List.mem_cons_self)
  exact congrArg₂ Circle.mk center radius.symm

theorem points (looks : Resembles back vs t s) {points : List (Point Variable)}
    (inside : points.flatMap Point.toList ⊆ vs) :
    (points.map (Point.map back)).map s.point = points.map t.point := by
  rw [List.map_map]
  apply List.map_congr_left
  intro p member
  exact looks.point fun v named => inside (List.mem_flatMap.mpr ⟨p, member, named⟩)

theorem lengths (looks : Resembles back vs t s) {lines : List (Line Variable)}
    (inside : lines.flatMap Line.toList ⊆ vs) :
    (lines.map (Line.map back)).map (fun l => (s.line l).length) =
      lines.map fun l => (t.line l).length := by
  rw [List.map_map]
  apply List.map_congr_left
  intro l member
  have same := looks.line fun v named => inside (List.mem_flatMap.mpr ⟨l, member, named⟩)
  rw [Function.comp_apply, same]

theorem toward (looks : Resembles back vs t s) {v : Variable} (member : v ∈ vs) (goal : α) :
    Delta.toward s (back v) goal = (Delta.toward t v goal).map back := by
  rw [Delta.toward, Delta.toward, Delta.map, looks.value member]

theorem towardPoint (looks : Resembles back vs t s) {p : Point Variable} (inside : p.toList ⊆ vs)
    (goal : Point α) :
    Delta.towardPoint s (p.map back) goal = (Delta.towardPoint t p goal).map (Delta.map back) := by
  have x := looks.toward (v := p.x) (inside (by simp [Point.toList])) goal.x
  have y := looks.toward (v := p.y) (inside (by simp [Point.toList])) goal.y
  rw [Delta.towardPoint, Delta.towardPoint, Point.map, x, y]
  rfl

private theorem pinnedLine? (looks : Resembles back vs t s) (points : List (Point Variable))
    (inside : points.flatMap Point.toList ⊆ vs) (firstX firstY : Option (Point α)) :
    s.pinnedLine? firstX firstY (points.map (Point.map back)) = t.pinnedLine? firstX firstY points := by
  induction points generalizing firstX firstY with
  | nil => rfl
  | cons p rest ih =>
    rw [List.flatMap_cons, List.append_subset] at inside
    have place := looks.point inside.1
    have x : t.isConstant p.x = s.isConstant (p.map back).x :=
      looks.isConstant (inside.1 (by simp [Point.toList]))
    have y : t.isConstant p.y = s.isConstant (p.map back).y :=
      looks.isConstant (inside.1 (by simp [Point.toList]))
    simp only [List.map_cons, Store.pinnedLine?, place, ← x, ← y, ih inside.2]

private theorem sharedLine? (looks : Resembles back vs t s) (center : Point α) {p q : Point Variable}
    (insideP : p.toList ⊆ vs) (insideQ : q.toList ⊆ vs) :
    s.sharedLine? center (p.map back) (q.map back) = t.sharedLine? center p q := by
  have px : p.x ∈ vs := insideP (by simp [Point.toList])
  have py : p.y ∈ vs := insideP (by simp [Point.toList])
  have qx : q.x ∈ vs := insideQ (by simp [Point.toList])
  have qy : q.y ∈ vs := insideQ (by simp [Point.toList])
  rw [Store.sharedLine?, Store.sharedLine?, looks.linked _ px _ qx, looks.linked _ py _ qy, looks.value px,
    looks.value py, looks.value qx, looks.value qy]
  rfl

private theorem linkedLine? (looks : Resembles back vs t s) (points : List (Point Variable))
    (inside : points.flatMap Point.toList ⊆ vs) :
    s.linkedLine? (points.map (Point.map back)) = t.linkedLine? points := by
  have part : ∀ p ∈ points, p.toList ⊆ vs :=
    fun p member v named => inside (List.mem_flatMap.mpr ⟨p, member, named⟩)
  rw [Store.linkedLine?, Store.linkedLine?, orderedPairs_map, List.findSome?_map,
    looks.points inside]
  apply findSome?_congr
  intro pair member
  obtain ⟨first, second⟩ := mem_of_mem_orderedPairs member
  exact looks.sharedLine? _ (part _ first) (part _ second)

theorem fittedLine (looks : Resembles back vs t s) (points : List (Point Variable))
    (inside : points.flatMap Point.toList ⊆ vs) :
    s.fittedLine (points.map (Point.map back)) = t.fittedLine points := by
  rw [Store.fittedLine, Store.fittedLine, forcedLine?, forcedLine?,
    looks.pinnedLine? points inside, looks.linkedLine? points inside, looks.points inside]

end Resembles

end Store

namespace Relation

variable {α : Type} [Scalar α] {back : Variable → Variable} {vs : List Variable} {s t : Store α}

private theorem rescale_map (looks : Store.Resembles back vs t s) (half : α) {l : Line Variable}
    (inside : l.toList ⊆ vs) :
    rescale s half (l.map back) = (rescale t half l).map (Delta.map back) := by
  obtain ⟨first, second⟩ := List.append_subset.mp inside
  rw [rescale, looks.line inside, rescale, List.map_append]
  exact congrArg₂ _ (looks.towardPoint first _) (looks.towardPoint second _)

theorem deltas_map (looks : Store.Resembles back vs t s) (relation : Relation)
    (inside : relation.owned ⊆ vs) :
    deltas s (relation.map back) = (deltas t relation).map (Delta.map back) := by
  cases relation with
  | midpoint point line =>
    obtain ⟨first, second⟩ := List.append_subset.mp inside
    obtain ⟨start, stop⟩ := List.append_subset.mp second
    rw [map, deltas, deltas, looks.point first, looks.line second, List.map_append,
      List.map_append]
    exact congrArg₂ _ (congrArg₂ _ (looks.towardPoint first _) (looks.towardPoint stop _))
      (looks.towardPoint start _)
  | equalValues vs =>
    have values : (vs.map back).map s.value = vs.map t.value := by
      rw [List.map_map]
      exact List.map_congr_left fun v member => (looks.value (inside member)).symm
    rw [map, deltas, deltas, values, List.map_map, List.map_map]
    exact List.map_congr_left fun v member => looks.toward (inside member) _
  | colinearPoints points =>
    rw [map, deltas, deltas, List.length_map]
    split
    · rfl
    · rw [looks.fittedLine points inside, List.flatMap_map, List.map_flatMap]
      apply List.flatMap_congr
      intro p member
      have part : p.toList ⊆ _ := fun v named => inside (List.mem_flatMap.mpr ⟨p, member, named⟩)
      rw [looks.point part]
      exact looks.towardPoint part _
  | pointOnCircle point circle =>
    obtain ⟨first, second⟩ := List.append_subset.mp inside
    obtain ⟨center, radius⟩ := List.append_subset.mp second
    rw [map, deltas, deltas, looks.point first, looks.circle second, List.map_append,
      List.map_append]
    exact congrArg₂ _ (congrArg₂ _ (looks.towardPoint first _) (looks.towardPoint center _))
      (congrArg (· :: []) (looks.toward (radius List.mem_cons_self) _))
  | equalLength lines =>
    rw [map, deltas, deltas, looks.lengths inside, List.flatMap_map, List.map_flatMap]
    apply List.flatMap_congr
    intro l member
    exact rescale_map looks _ fun v named => inside (List.mem_flatMap.mpr ⟨l, member, named⟩)
  | tangentLine line circle =>
    obtain ⟨first, second⟩ := List.append_subset.mp inside
    obtain ⟨start, stop⟩ := List.append_subset.mp first
    obtain ⟨center, radius⟩ := List.append_subset.mp second
    rw [map, deltas, deltas, looks.line first, looks.circle second, List.map_append,
      List.map_append, List.map_cons]
    exact congrArg₂ _ (congrArg₂ _ (congrArg₂ _ (looks.toward (radius List.mem_cons_self) _)
      (looks.towardPoint center _)) (looks.towardPoint start _)) (looks.towardPoint stop _)

theorem error_map (looks : Store.Resembles back vs t s) (relation : Relation)
    (inside : relation.owned ⊆ vs) : error s (relation.map back) = error t relation := by
  cases relation with
  | midpoint point line =>
    obtain ⟨first, second⟩ := List.append_subset.mp inside
    rw [map, error, error, looks.point first, looks.line second]
  | equalValues vs =>
    have values : (vs.map back).map s.value = vs.map t.value := by
      rw [List.map_map]
      exact List.map_congr_left fun v member => (looks.value (inside member)).symm
    rw [map, error, error, values]
  | colinearPoints points =>
    rw [map, error, error, List.length_map, looks.fittedLine points inside]
    have places := congrArg (List.map (t.fittedLine points).distance) (looks.points inside)
    simp only [List.map_map, Function.comp_def] at places ⊢
    rw [places]
  | pointOnCircle point circle =>
    obtain ⟨first, second⟩ := List.append_subset.mp inside
    rw [map, error, error, looks.point first, looks.circle second]
  | equalLength lines =>
    rw [map, error, error, looks.lengths inside, List.isEmpty_map]
  | tangentLine line circle =>
    obtain ⟨first, second⟩ := List.append_subset.mp inside
    rw [map, error, error, looks.line first, looks.circle second]

end Relation

end PlaneSketch

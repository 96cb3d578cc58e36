import PlaneSketch.Proofs.Relation.Forced
import PlaneSketch.Proofs.Store.Copy

/-! The line that pins and links force on points, drawn into their store. It is made of variables that are linked to
none of those before, and it leaves the points as they are. -/
namespace PlaneSketch.Store

variable {α : Type} [Scalar α]

/-- Values with the free variables that have been made for them, in cells that were not there before. -/
structure Fresh (s : Store α) (made : List (α × Variable)) (t : Store α) : Prop where
  grown : Grown s t
  inside : ∀ pair ∈ made, pair.2.index < t.named.size
  own : ∀ pair ∈ made, s.cells.size ≤ t.cellOf pair.2
  cell : ∀ pair ∈ made, t.cell pair.2 = ⟨pair.1, false⟩

namespace Fresh

variable {s t : Store α} {made : List (α × Variable)}

private theorem start (closed : s.Closed) : Fresh s [] s where
  grown := .refl closed
  inside _ member := nomatch member
  own _ member := nomatch member
  cell _ member := nomatch member

private theorem step (before : Fresh s made t) (x : α) :
    Fresh s (made ++ [(x, ⟨t.named.size⟩)]) ⟨t.cells.push ⟨x, false⟩, t.named.push t.cells.size⟩ where
  grown := before.grown.trans (.fresh before.grown.closed ⟨x, false⟩)
  inside := by
    rw [List.forall_mem_append, List.forall_mem_singleton, Array.size_push]
    exact ⟨fun pair member => Nat.lt_succ_of_lt (before.inside pair member), Nat.lt_succ_self _⟩
  own := by
    rw [List.forall_mem_append, List.forall_mem_singleton, t.cellOf_push_last]
    refine ⟨fun pair member => ?_, before.grown.cells⟩
    rw [t.cellOf_push (before.inside pair member)]
    exact before.own pair member
  cell := by
    have further := Grown.fresh before.grown.closed (Cell.mk x false)
    rw [List.forall_mem_append, List.forall_mem_singleton, cell_eq, t.cellOf_push_last]
    refine ⟨fun pair member => ?_, by simp⟩
    have inside := before.inside pair member
    exact (further.cell inside (before.grown.closed _ inside)).trans (before.cell pair member)

private theorem point (before : Fresh s made t) (p : Point α) :
    ∃ drawn u, p.mapM (fun x => (fresh x false : StateM (Store α) Variable)) t = (drawn, u) ∧
      Fresh s (made ++ p.toList.zip drawn.toList) u := by
  have both := (before.step p.x).step p.y
  rw [List.append_assoc] at both
  exact ⟨_, _, rfl, both⟩

private theorem line (closed : s.Closed) (l : Line α) :
    ∃ drawn t, l.mapM (fun x => (fresh x false : StateM (Store α) Variable)) s = (drawn, t) ∧
      Fresh s (l.toList.zip drawn.toList) t := by
  obtain ⟨p0, t, made0, before⟩ := (start closed).point l.p0
  obtain ⟨p1, u, made1, both⟩ := before.point l.p1
  refine ⟨⟨p0, p1⟩, u, ?_, both⟩
  simp only [Line.mapM, bind, StateT.bind, made0, made1]
  rfl

private theorem unlinked {l : Line α} {drawn : Line Variable} (new : Fresh s (l.toList.zip drawn.toList) t)
    (closed : s.Closed)
    {w : Variable} (old : w.index < s.named.size) : ∀ v ∈ drawn.toList, t.isLinked v w = false := by
  have listed : (l.toList.zip drawn.toList).map Prod.snd = drawn.toList := rfl
  rw [← listed, List.forall_mem_map]
  exact fun pair member => new.grown.unlinked closed (new.own pair member) old

end Fresh

section Drawing

variable {s : Store α} {points : List (Point Variable)} {earlier : List Variable} {p q : Point Variable}

theorem line_eq {drawn : Line Variable} {l : Line α}
    (values : ∀ pair ∈ l.toList.zip drawn.toList, s.value pair.2 = pair.1) : s.line drawn = l := by
  simp only [Line.toList, Point.toList, List.cons_append, List.nil_append, List.zip_cons_cons, List.zip_nil_left,
    List.forall_mem_cons] at values
  obtain ⟨x0, y0, x1, y1, -⟩ := values
  rw [line, Line.map, Point.map, Point.map, x0, y0, x1, y1]

private theorem line_of_copiedApart {t : Store α} {drawn : Line Variable}
    (copied : CopiedApart earlier (p.toList ++ q.toList) drawn.toList s t) :
    t.line drawn = ⟨s.point p, s.point q⟩ := by
  have values : (Line.mk (s.point p) (s.point q)).toList = (p.toList ++ q.toList).map s.value := rfl
  apply line_eq
  rw [values, List.zip_map_left, List.forall_mem_map]
  exact fun pair member => congrArg Cell.value (copied.cell pair member)

theorem drawForced_eq (s : Store α) (points : List (Point Variable)) :
    drawForced points s =
      match s.pinnedPair? none none points, s.linkedLine? points with
      | some (p, q), _ => (lineThrough p q s).map some id
      | none, some l => Prod.map some id ((l.mapM fun x => fresh x false : StateM (Store α) (Line Variable)) s)
      | none, none => (none, s) := by
  simp only [drawForced, bind, StateT.bind, get, getThe, MonadStateOf.get, StateT.get, pure]
  cases s.pinnedPair? none none points with
  | some pair => rfl
  | none => cases s.linkedLine? points <;> rfl

private theorem exists_drawForced_of_pinned (closed : s.Closed) (old : ∀ v ∈ earlier, v.index < s.named.size)
    (among : points.flatMap Point.toList ⊆ earlier) (found : s.pinnedPair? none none points = some (p, q)) :
    ∃ axis k l t, s.FirstCompletes points axis k p q ∧ drawForced points s = (some l, t) ∧
      CopiedApart earlier (p.toList ++ q.toList) l.toList s t := by
  obtain ⟨axis, k, first⟩ := exists_of_pinnedPair? found
  obtain ⟨left, right⟩ := first.mem
  have inside : p.toList ++ q.toList ⊆ earlier := List.append_subset.mpr
    ⟨fun v member => among (List.mem_flatMap.mpr ⟨p, left, member⟩),
      fun v member => among (List.mem_flatMap.mpr ⟨q, right, member⟩)⟩
  obtain ⟨l, t, made, copied⟩ := exists_lineThrough closed old inside
  refine ⟨axis, k, l, t, first, ?_, copied⟩
  rw [drawForced_eq, found]
  exact congrArg (Prod.map some id) made

private theorem exists_drawForced_of_linked (closed : s.Closed)
    (unpinned : s.pinnedPair? none none points = none) (found : s.linkedPair? points = some (p, q)) :
    ∃ axis i j l t, s.FirstLinked points axis i j p q ∧ s.linkedLine? points = some (s.acrossLine points axis p q) ∧
      drawForced points s = (some l, t) ∧ Fresh s ((s.acrossLine points axis p q).toList.zip l.toList) t := by
  obtain ⟨axis, i, j, first⟩ := exists_of_linkedPair? found
  have across : s.linkedLine? points = some (s.acrossLine points axis p q) := by
    rw [linkedLine?_eq, found]
    exact first.sharedLine?
  obtain ⟨l, t, made, new⟩ := Fresh.line closed (s.acrossLine points axis p q)
  refine ⟨axis, i, j, l, t, first, across, ?_, new⟩
  rw [drawForced_eq, unpinned, across]
  exact congrArg (Prod.map some id) made

/-- A line is drawn exactly if two entries are pinned along one axis or two different ones have a common
coordinate. If some are so pinned, it goes through copies of the first two that the scan finds; otherwise it lies
across the axis of the first ordered pair with a common coordinate, at the mean of all points. It is the forced line of
relations, and nothing that was there before is changed or linked to it. -/
theorem drawForced_first (s : Store α) (points : List (Point Variable)) (earlier : List Variable) (closed : s.Closed)
    (old : ∀ v ∈ earlier, v.index < s.named.size) (among : points.flatMap Point.toList ⊆ earlier) :
    ∃ drawn t, drawForced points s = (drawn, t) ∧
      (drawn.isSome ↔ s.PairPinned points ∨ s.PairLinked points) ∧
      (s.PairPinned points → ∃ axis k p q l, s.FirstCompletes points axis k p q ∧ drawn = some l ∧
        t.line l = ⟨s.point p, s.point q⟩ ∧ CopiedApart earlier (p.toList ++ q.toList) l.toList s t) ∧
      (¬s.PairPinned points → s.PairLinked points → ∃ axis i j p q l, s.FirstLinked points axis i j p q ∧
        drawn = some l ∧ t.line l = s.acrossLine points axis p q) ∧
      drawn.map t.line = s.forcedLine? points ∧ Unchanged earlier s t ∧
        ∀ l ∈ drawn, ∀ v ∈ l.toList, ∀ w ∈ earlier, t.isLinked v w = false := by
  rw [← isSome_pinnedPair?, PairLinked, ← isSome_linkedPair?]
  cases pinned : s.pinnedPair? none none points with
  | some pair =>
    obtain ⟨p, q⟩ := pair
    obtain ⟨axis, k, l, t, first, made, copied⟩ := exists_drawForced_of_pinned closed old among pinned
    have line := line_of_copiedApart copied
    refine ⟨some l, t, made, by simp, fun _ => ⟨axis, k, p, q, l, first, rfl, line, copied⟩, by simp, ?_,
      copied.kept, ?_⟩
    · rw [forcedLine?_eq, pinned]
      exact congrArg some line
    · rintro _ ⟨⟩
      exact copied.apart
  | none =>
    cases linked : s.linkedPair? points with
    | some pair =>
      obtain ⟨p, q⟩ := pair
      obtain ⟨axis, i, j, l, t, first, across, made, new⟩ := exists_drawForced_of_linked closed pinned linked
      have line : t.line l = s.acrossLine points axis p q :=
        line_eq fun pair member => congrArg Cell.value (new.cell pair member)
      refine ⟨some l, t, made, by simp, by simp, fun _ _ => ⟨axis, i, j, p, q, l, first, rfl, line⟩, ?_,
        new.grown.unchanged closed old, ?_⟩
      · rw [forcedLine?_eq, pinned, ← linkedLine?_eq, across]
        exact congrArg some line
      · rintro _ ⟨⟩ v member w there
        exact new.unlinked closed (old w there) v member
    | none =>
      have unlinked : s.linkedLine? points = none := by rw [linkedLine?_eq, linked, Option.bind_none]
      refine ⟨none, s, ?_, by simp, by simp, by simp, ?_, .refl earlier s, nofun⟩
      · rw [drawForced_eq, pinned, unlinked]
      · rw [forcedLine?_eq, pinned, ← linkedLine?_eq, unlinked]
        rfl

end Drawing

section Crossing

/-- Five points, of which the first three are pinned in turn along the second, the first and both axes; the last two
have their second coordinate in common. -/
def crossingStore : Store Float :=
  ⟨#[⟨1, false⟩, ⟨2, true⟩, ⟨3, true⟩, ⟨4, false⟩, ⟨5, true⟩, ⟨6, true⟩, ⟨7, false⟩, ⟨8, false⟩, ⟨9, false⟩],
    #[0, 1, 2, 3, 4, 5, 6, 7, 8, 7]⟩

/-- The third point completes a pair along both axes, and the first axis decides. One pin along the second axis forces
nothing, so that a common coordinate does. -/
theorem drawForced_first_crossing :
    let earlier : List Variable := (List.range 10).map Variable.mk
    let a : Point Variable := ⟨⟨0⟩, ⟨1⟩⟩
    let b : Point Variable := ⟨⟨2⟩, ⟨3⟩⟩
    let c : Point Variable := ⟨⟨4⟩, ⟨5⟩⟩
    let d : Point Variable := ⟨⟨6⟩, ⟨7⟩⟩
    let e : Point Variable := ⟨⟨8⟩, ⟨9⟩⟩
    let s := crossingStore
    (s.Closed ∧ (∀ v ∈ earlier, v.index < s.named.size) ∧ [a, b, c].flatMap Point.toList ⊆ earlier ∧
        [a, d, e].flatMap Point.toList ⊆ earlier) ∧
      (∃ l t, drawForced [a, b, c] s = (some l, t) ∧ t.line l = ⟨s.point b, s.point c⟩ ∧ Unchanged earlier s t) ∧
      ∃ l t, drawForced [a, d, e] s = (some l, t) ∧ t.line l = s.acrossLine [a, d, e] .y d e ∧
        Unchanged earlier s t := by
  intro earlier a b c d e s
  have closed : s.Closed := by decide
  have old : ∀ v ∈ earlier, v.index < s.named.size := by decide
  have pinned : [a, b, c].flatMap Point.toList ⊆ earlier := by decide
  have linked : [a, d, e].flatMap Point.toList ⊆ earlier := by decide
  refine ⟨⟨closed, old, pinned, linked⟩, ?_, ?_⟩
  · obtain ⟨drawn, t, made, -, -, -, read, kept, -⟩ := drawForced_first s [a, b, c] earlier closed old pinned
    have forced : s.forcedLine? [a, b, c] = some ⟨s.point b, s.point c⟩ := rfl
    obtain ⟨l, rfl, line⟩ := Option.map_eq_some_iff.mp (read.trans forced)
    exact ⟨l, t, made, line, kept⟩
  · obtain ⟨drawn, t, made, -, -, -, read, kept, -⟩ := drawForced_first s [a, d, e] earlier closed old linked
    have forced : s.forcedLine? [a, d, e] = some (s.acrossLine [a, d, e] .y d e) := rfl
    obtain ⟨l, rfl, line⟩ := Option.map_eq_some_iff.mp (read.trans forced)
    exact ⟨l, t, made, line, kept⟩

end Crossing

end PlaneSketch.Store

import PlaneSketch.Proofs.Store.Cells

/-! Two stores that cannot be told apart through some variables: each of these stands for a variable
of the other store, with an equal cell and the same links. -/
namespace PlaneSketch.Store

variable {α : Type} [Scalar α]

theorem cell_updateCell (s : Store α) (i : Nat) (f : Cell α → Cell α) {v : Variable}
    (live : s.Live v) :
    (s.updateCell i f).cell v = if i = s.cellOf v then f (s.cell v) else s.cell v := by
  have present : s.cells[s.cellOf v]? = some s.cells[s.cellOf v] := Array.getElem?_eq_getElem live
  rw [cell_eq, cell_eq, (s.sameNames_updateCell i f).cellOf, getElem?_updateCell, present]
  split <;> rfl

/-- Through the variables `vs`, the store `t` looks as `s` does through what they stand for. -/
structure Resembles (back : Variable → Variable) (vs : List Variable) (t s : Store α) : Prop where
  cell : ∀ v ∈ vs, t.cell v = s.cell (back v)
  linked : ∀ v ∈ vs, ∀ w ∈ vs, t.isLinked v w = s.isLinked (back v) (back w)

namespace Resembles

variable {back : Variable → Variable} {vs : List Variable} {s t : Store α}

theorem value (looks : Resembles back vs t s) {v : Variable} (member : v ∈ vs) :
    t.value v = s.value (back v) := by
  rw [Store.value, Store.value, looks.cell v member]

theorem isConstant (looks : Resembles back vs t s) {v : Variable} (member : v ∈ vs) :
    t.isConstant v = s.isConstant (back v) := by
  rw [Store.isConstant, Store.isConstant, looks.cell v member]

end Resembles

/-- Through the variables `vs`, the store `t` behaves as `s` does through what they stand for. -/
structure Mirrors (back : Variable → Variable) (vs : List Variable) (t s : Store α) : Prop
    extends Resembles back vs t s where
  live : ∀ v ∈ vs, t.Live v
  liveBack : ∀ v ∈ vs, s.Live (back v)

namespace Mirrors

variable {back : Variable → Variable} {vs : List Variable} {s s' t t' : Store α}

theorem of_cells (mirror : Mirrors back vs t s) (names : SameNames t t') (namesBack : SameNames s s')
    (cell : ∀ v ∈ vs, t'.cell v = s'.cell (back v)) : Mirrors back vs t' s' where
  live v member := names.live (mirror.live v member)
  liveBack v member := namesBack.live (mirror.liveBack v member)
  cell := cell
  linked v first w second := by
    rw [names.isLinked, namesBack.isLinked]
    exact mirror.linked v first w second

private theorem setConstant (mirror : Mirrors back vs t s) {v : Variable} (member : v ∈ vs)
    (constant : Bool) : Mirrors back vs (t.setConstant v constant) (s.setConstant (back v) constant) := by
  apply mirror.of_cells (t.sameNames_updateCell _ _) (s.sameNames_updateCell _ _)
  intro w inside
  have same : t.cellOf v = t.cellOf w ↔ s.cellOf (back v) = s.cellOf (back w) := by
    rw [← isLinked_iff, ← isLinked_iff, mirror.linked v member w inside]
  rw [cell_updateCell t _ _ (mirror.live w inside),
    cell_updateCell s _ _ (mirror.liveBack w inside), mirror.cell w inside]
  simp only [same]

theorem setConstants (mirror : Mirrors back vs t s) (entries : List (Variable × Bool))
    (inside : ∀ entry ∈ entries, entry.1 ∈ vs) :
    Mirrors back vs (t.setConstants entries)
      (s.setConstants (entries.map fun entry => (back entry.1, entry.2))) := by
  induction entries generalizing t s with
  | nil => exact mirror
  | cons entry entries ih =>
    exact ih (mirror.setConstant (inside entry List.mem_cons_self) entry.2)
      fun other member => inside other (List.mem_cons_of_mem _ member)

theorem distinct (mirror : Mirrors back vs t s) {ws : List Variable} (inside : ws ⊆ vs) :
    s.distinct (ws.map back) = (t.distinct ws).map back := by
  rw [Store.distinct, eraseDupsBy_map, Store.distinct]
  congr 1
  apply eraseDupsBy_congr
  intro v first w second
  exact (mirror.linked v (inside first) w (inside second)).symm

theorem guardFor (mirror : Mirrors back vs t s) {ws : List Variable} (inside : ws ⊆ vs) :
    (s.guardFor (ws.map back)).saved =
      (t.guardFor ws).saved.map fun entry => (back entry.1, entry.2) := by
  rw [Store.guardFor, Store.guardFor, mirror.distinct inside, List.map_map, List.map_map]
  apply List.map_congr_left
  intro v member
  rw [Function.comp_apply, Function.comp_apply,
    mirror.isConstant (inside (t.distinct_subset ws member))]

theorem saved_subset {ws : List Variable} (inside : ws ⊆ vs) :
    ∀ entry ∈ (t.guardFor ws).saved, entry.1 ∈ vs := by
  intro entry member
  obtain ⟨v, first, rfl⟩ := List.mem_map.mp member
  exact inside (t.distinct_subset ws first)

theorem hold (mirror : Mirrors back vs t s) {ws : List Variable} (inside : ws ⊆ vs) :
    Mirrors back vs (t.hold (t.guardFor ws)) (s.hold (s.guardFor (ws.map back))) := by
  have pinned := mirror.setConstants ((t.guardFor ws).saved.map fun entry => (entry.1, true)) <| by
    intro entry member
    obtain ⟨saved, found, rfl⟩ := List.mem_map.mp member
    exact saved_subset inside saved found
  rw [hold_eq, hold_eq, mirror.guardFor inside]
  simpa only [List.map_map, Function.comp_def] using pinned

/-- Guards are released alike long after they were taken. -/
theorem release (mirror : Mirrors back vs t s) (later : Mirrors back vs t' s') {ws : List Variable}
    (inside : ws ⊆ vs) :
    Mirrors back vs (t'.release (t.guardFor ws)) (s'.release (s.guardFor (ws.map back))) := by
  have freed := later.setConstants (t.guardFor ws).saved.reverse <| by
    intro entry member
    exact saved_subset inside entry (List.mem_reverse.mp member)
  rw [List.map_reverse, ← mirror.guardFor inside] at freed
  exact freed

end Mirrors

end PlaneSketch.Store

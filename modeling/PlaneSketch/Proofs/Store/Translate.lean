import PlaneSketch.Proofs.Sketch.Edit
import PlaneSketch.Proofs.Solver.Totals
import PlaneSketch.Proofs.Store.Guard

/-! What moving a figure adds to each cell. A cell is shifted once for each axis that the figure has one of
its variables along, so every cell is shifted at most once unless a coordinate along one axis is linked to
one along the other. -/
namespace PlaneSketch.Store

variable {α : Type}

/-- The shifts along one axis, one for each cell. -/
def shiftsAlong (s : Store α) (vs : List Variable) (delta : α) : List (Nat × α) :=
  (s.distinct vs).map fun v => (s.cellOf v, delta)

def shifts (s : Store α) (f : Figure Variable) (step : Point α) : List (Nat × α) :=
  s.shiftsAlong f.xs step.x ++ s.shiftsAlong f.ys step.y

private theorem amountsFor_append (i : Nat) (first second : List (Nat × α)) :
    amountsFor i (first ++ second) = amountsFor i first ++ amountsFor i second := by
  rw [amountsFor, List.filter_append, List.map_append]
  rfl

private theorem SameNames.shiftsAlong {s t : Store α} (names : SameNames s t) (vs : List Variable)
    (delta : α) : t.shiftsAlong vs delta = s.shiftsAlong vs delta := by
  have linked : t.isLinked = s.isLinked := funext₂ names.isLinked
  have cells : t.cellOf = s.cellOf := funext names.cellOf
  rw [Store.shiftsAlong, Store.shiftsAlong, distinct, distinct, linked, cells]

private theorem amountsFor_shiftsAlong (s : Store α) (vs : List Variable) (delta : α) (i : Nat) :
    amountsFor i (s.shiftsAlong vs delta) = if ∃ v ∈ vs, s.cellOf v = i then [delta] else [] := by
  have times : amountsFor i (s.shiftsAlong vs delta) =
      List.replicate (((s.distinct vs).map s.cellOf).count i) delta := by
    rw [amountsFor, shiftsAlong, List.filter_map, List.map_map, List.count, List.countP_map, List.countP_eq_length_filter]
    exact List.map_const ..
  have named : i ∈ (s.distinct vs).map s.cellOf ↔ ∃ v ∈ vs, s.cellOf v = i := by
    rw [map_cellOf_distinct]
    simp
  rw [times]
  split
  case isTrue some => rw [List.count_eq_one_of_mem (s.nodup_cells_distinct vs) (named.mpr some), List.replicate_one]
  case isFalse none => rw [List.count_eq_zero_of_not_mem (mt named.mp none), List.replicate_zero]

theorem amountsFor_shifts (s : Store α) (f : Figure Variable) (step : Point α) (i : Nat) :
    amountsFor i (s.shifts f step) =
      (if ∃ v ∈ f.xs, s.cellOf v = i then [step.x] else []) ++
        if ∃ v ∈ f.ys, s.cellOf v = i then [step.y] else [] := by
  rw [shifts, amountsFor_append, amountsFor_shiftsAlong, amountsFor_shiftsAlong]

private theorem length_amountsFor_shifts_le_one_iff (s : Store α) (f : Figure Variable) (step : Point α) :
    (∀ i, (amountsFor i (s.shifts f step)).length ≤ 1) ↔ ∀ v ∈ f.xs, ∀ w ∈ f.ys, s.isLinked v w = false := by
  constructor
  · intro once v along w across
    rw [Bool.eq_false_iff]
    intro linked
    have twice := once (s.cellOf v)
    rw [amountsFor_shifts, if_pos ⟨v, along, rfl⟩, if_pos ⟨w, across, (isLinked_iff.mp linked).symm⟩] at twice
    exact absurd twice (Nat.not_succ_le_self 1)
  · intro apart i
    rw [amountsFor_shifts]
    split
    case isTrue both =>
      obtain ⟨v, along, rfl⟩ := both
      have none : ¬∃ w ∈ f.ys, s.cellOf w = s.cellOf v := by
        rintro ⟨w, across, same⟩
        exact Bool.eq_false_iff.mp (apart v along w across) (isLinked_iff.mpr same.symm)
      rw [if_neg none]
      exact le_rfl
    case isFalse =>
      split
      · exact le_rfl
      · exact Nat.zero_le _

variable [Scalar α]

def shiftAll (s : Store α) (shifts : List (Nat × α)) : Store α :=
  shifts.foldl (fun s entry => s.updateCell entry.1 fun cell => { cell with value := cell.value + entry.2 }) s

theorem shiftAll_append (s : Store α) (first second : List (Nat × α)) :
    s.shiftAll (first ++ second) = (s.shiftAll first).shiftAll second :=
  List.foldl_append

theorem sameNames_shiftAll (s : Store α) (shifts : List (Nat × α)) : SameNames s (s.shiftAll shifts) :=
  sameNames_foldl (fun s _ => s.sameNames_updateCell _ _) shifts s

/-- A cell takes the amounts that are for it, in order; nothing else happens to it. -/
theorem getElem?_shiftAll (s : Store α) (shifts : List (Nat × α)) (i : Nat) :
    (s.shiftAll shifts).cells[i]? =
      (s.cells[i]?).map fun cell => { cell with value := (amountsFor i shifts).foldl (· + ·) cell.value } := by
  induction shifts using List.reverseRecOn with
  | nil => exact Option.map_id'.symm
  | append_singleton shifts entry ih =>
    obtain ⟨cell, amount⟩ := entry
    rw [shiftAll_append]
    refine (getElem?_updateCell ..).trans ?_
    rw [ih]
    split
    case isTrue here =>
      subst here
      rw [Option.map_map, amountsFor_concat_self]
      simp only [List.foldl_concat]
      rfl
    case isFalse other => rw [amountsFor_concat_of_ne other]

theorem valueAt_shiftAll (s : Store α) (shifts : List (Nat × α)) (i : Nat) :
    (s.shiftAll shifts).valueAt i = (s.valueAt i).map fun x => (amountsFor i shifts).foldl (· + ·) x := by
  rw [valueAt, valueAt, getElem?_shiftAll, Option.map_map, Option.map_map]
  rfl

private theorem sameFlags_shiftAll (s : Store α) (shifts : List (Nat × α)) :
    SameFlags s (s.shiftAll shifts) where
  toSameNames := s.sameNames_shiftAll shifts
  flags i := by
    rw [constantAt, constantAt, getElem?_shiftAll, Option.map_map]
    rfl

/-- The cells are looked up one by one while others are shifted already, which renames none. -/
private theorem shiftCells_eq (s : Store α) (vs : List Variable) (delta : α) :
    s.shiftCells vs delta = s.shiftAll (s.shiftsAlong vs delta) := by
  rw [shiftCells, shiftsAlong]
  induction s.distinct vs using List.reverseRecOn with
  | nil => rfl
  | append_singleton firsts v ih =>
    rw [List.foldl_concat, ih, List.map_append, shiftAll_append, shift, (s.sameNames_shiftAll _).cellOf]
    rfl

private theorem shiftCells_shiftCells (s : Store α) (f : Figure Variable) (step : Point α) :
    (s.shiftCells f.xs step.x).shiftCells f.ys step.y = s.shiftAll (s.shifts f step) := by
  rw [shiftCells_eq _ f.ys, (s.sameNames_shiftCells f.xs step.x).shiftsAlong, shiftCells_eq, shifts, shiftAll_append]

private theorem value_shiftCells {s : Store α} {vs : List Variable} {v : Variable}
    (apart : ∀ w ∈ vs, s.isLinked w v = false) (delta : α) : (s.shiftCells vs delta).value v = s.value v := by
  have elsewhere : ∀ w ∈ vs, s.cellOf w ≠ s.cellOf v := by
    intro w member same
    have linked : s.isLinked w v = true := isLinked_iff.mpr same
    simp [apart w member] at linked
  rw [value_eq_valueAt, value_eq_valueAt, (s.sameNames_shiftCells vs delta).cellOf, valueAt_shiftCells s elsewhere]

/-- The store after a figure has been moved by a step. -/
structure Translated (s : Store α) (f : Figure Variable) (step : Point α) (t : Store α) : Prop
    extends SameFlags s t where
  shifted : t = s.shiftAll (s.shifts f step)
  values : ∀ i, t.valueAt i = (s.valueAt i).map fun x => (amountsFor i (s.shifts f step)).foldl (· + ·) x
  amounts : ∀ i, amountsFor i (s.shifts f step) =
    (if ∃ v ∈ f.xs, s.cellOf v = i then [step.x] else []) ++
      if ∃ v ∈ f.ys, s.cellOf v = i then [step.y] else []
  others : ∀ i, (∀ v ∈ f.xs ++ f.ys, s.cellOf v ≠ i) → t.cells[i]? = s.cells[i]?
  /-- No cell is shifted twice, unless two coordinates along different axes are linked. -/
  once : (∀ i, (amountsFor i (s.shifts f step)).length ≤ 1) ↔
    ∀ v ∈ f.xs, ∀ w ∈ f.ys, s.isLinked v w = false

private theorem translated_shiftAll (s : Store α) (f : Figure Variable) (step : Point α) :
    Translated s f step (s.shiftAll (s.shifts f step)) where
  toSameFlags := s.sameFlags_shiftAll _
  shifted := rfl
  values := s.valueAt_shiftAll _
  amounts := s.amountsFor_shifts f step
  others i apart := by
    obtain ⟨alongs, acrosses⟩ := List.forall_mem_append.mp apart
    have along : ¬∃ v ∈ f.xs, s.cellOf v = i := fun ⟨v, member, here⟩ => alongs v member here
    have across : ¬∃ v ∈ f.ys, s.cellOf v = i := fun ⟨v, member, here⟩ => acrosses v member here
    rw [getElem?_shiftAll, amountsFor_shifts, if_neg along, if_neg across]
    cases s.cells[i]? <;> rfl
  once := s.length_amountsFor_shifts_le_one_iff f step

/-- Moving a figure shifts the cells of its coordinates by the step along their axis, and no other cell. Two
points of the store give the step between them, as long as moving along the first axis does not move them
along the second one. -/
theorem translate_shifts (s : Store α) (f : Figure Variable) :
    (∀ start goal : Point α,
      Translated s f ⟨goal.x - start.x, goal.y - start.y⟩ (s.translate f start goal)) ∧
    ∀ start goal : Point Variable, ∃ across : α,
      Translated s f ⟨s.value goal.x - s.value start.x, across⟩ (s.translateBetween f start goal) ∧
        ((∀ v ∈ f.xs, s.isLinked v start.y = false ∧ s.isLinked v goal.y = false) →
          across = s.value goal.y - s.value start.y) := by
  constructor
  · intro start goal
    rw [translate, shiftCells_shiftCells s f ⟨goal.x - start.x, goal.y - start.y⟩]
    exact s.translated_shiftAll f _
  · intro start goal
    let along := s.shiftCells f.xs (s.value goal.x - s.value start.x)
    refine ⟨along.value goal.y - along.value start.y, ?_, ?_⟩
    · have moved : s.translateBetween f start goal = s.shiftAll (s.shifts f
          ⟨s.value goal.x - s.value start.x, along.value goal.y - along.value start.y⟩) :=
        s.shiftCells_shiftCells f ⟨_, _⟩
      rw [moved]
      exact s.translated_shiftAll f _
    · intro apart
      have goalStays := value_shiftCells (fun v member => (apart v member).2) (s.value goal.x - s.value start.x)
      have startStays := value_shiftCells (fun v member => (apart v member).1) (s.value goal.x - s.value start.x)
      exact congrArg₂ (· - ·) goalStays startStays

section Examples

def levelStore : Store Float :=
  ⟨#[⟨1, false⟩, ⟨2, false⟩, ⟨4, false⟩, ⟨3, false⟩, ⟨7, false⟩], #[0, 1, 2, 1, 3, 4]⟩

def levelLine : Figure Variable := .line ⟨⟨⟨0⟩, ⟨1⟩⟩, ⟨⟨2⟩, ⟨3⟩⟩⟩

theorem translate_shifts_level :
    let t := levelStore.translateBetween levelLine ⟨⟨0⟩, ⟨1⟩⟩ ⟨⟨4⟩, ⟨5⟩⟩
    Translated levelStore levelLine ⟨2, 5⟩ t ∧ amountsFor 1 (levelStore.shifts levelLine ⟨2, 5⟩) = [5] ∧
      t.valueAt 0 = some 3 ∧ t.valueAt 1 = some 7 ∧ t.valueAt 2 = some 6 := by
  intro t
  obtain ⟨across, translated, read⟩ := (translate_shifts levelStore levelLine).2 ⟨⟨0⟩, ⟨1⟩⟩ ⟨⟨4⟩, ⟨5⟩⟩
  obtain rfl := read (by decide)
  have step : (⟨levelStore.value ⟨4⟩ - levelStore.value ⟨0⟩, levelStore.value ⟨5⟩ - levelStore.value ⟨1⟩⟩ :
      Point Float) = ⟨2, 5⟩ := by
    decide +kernel
  rw [step] at translated
  refine ⟨translated, translated.amounts 1, ?_⟩
  rw [translated.values, translated.values, translated.values, translated.amounts, translated.amounts,
    translated.amounts]
  decide +kernel

/-- A line from (1, 0) to (0, 1) whose first coordinate is linked to its last one. -/
def crossedLine : Figure Variable := .line ⟨⟨⟨0⟩, ⟨1⟩⟩, ⟨⟨2⟩, ⟨3⟩⟩⟩

def crossedStore : Store Float := ⟨#[⟨1, false⟩, ⟨0, false⟩, ⟨0, false⟩], #[0, 1, 2, 0]⟩

/-- The cell of both coordinates is shifted twice. -/
theorem translate_crossed :
    let t := crossedStore.translate crossedLine ⟨0, 0⟩ ⟨1, 1⟩
    amountsFor 0 (crossedStore.shifts crossedLine ⟨1, 1⟩) = [1, 1] ∧
      t.valueAt 0 = some 3 ∧ t.valueAt 1 = some 1 ∧ t.valueAt 2 = some 1 := by
  decide +kernel

end Examples

end PlaneSketch.Store

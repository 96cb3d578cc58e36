import PlaneSketch.Store.Placement
import PlaneSketch.Proofs.Store.Distinct
import PlaneSketch.Store.Guard

/-! The cells of a store, one by one: which of them a write changes, and that a guard puts every
flag back. -/
namespace PlaneSketch.Store

section Cells

variable {α : Type}

def valueAt (s : Store α) (i : Nat) : Option α := (s.cells[i]?).map Cell.value

def constantAt (s : Store α) (i : Nat) : Option Bool := (s.cells[i]?).map Cell.constant

theorem ext_getElem? {s t : Store α} (named : t.named = s.named)
    (cells : ∀ i : Nat, t.cells[i]? = s.cells[i]?) : t = s :=
  congrArg₂ Store.mk (Array.ext_getElem? cells) named

/-- The variable names a cell that exists. -/
def Live (s : Store α) (v : Variable) : Prop := s.cellOf v < s.cells.size

instance (s : Store α) (v : Variable) : Decidable (s.Live v) :=
  inferInstanceAs (Decidable (_ < _))

/-- The stores have the same variables and cells, naming each other alike. -/
structure SameNames (s t : Store α) : Prop where
  named : t.named = s.named
  size : t.cells.size = s.cells.size

namespace SameNames

variable {s t u : Store α}

theorem refl (s : Store α) : SameNames s s := ⟨rfl, rfl⟩

theorem symm (same : SameNames s t) : SameNames t s := ⟨same.named.symm, same.size.symm⟩

theorem trans (first : SameNames s t) (second : SameNames t u) : SameNames s u :=
  ⟨second.named.trans first.named, second.size.trans first.size⟩

theorem cellOf (same : SameNames s t) (v : Variable) : t.cellOf v = s.cellOf v := by
  rw [Store.cellOf, Store.cellOf, same.named]

theorem isLinked (same : SameNames s t) (v w : Variable) : t.isLinked v w = s.isLinked v w := by
  rw [Store.isLinked, Store.isLinked, same.cellOf, same.cellOf]

theorem live (same : SameNames s t) {v : Variable} (live : s.Live v) : t.Live v := by
  rw [Live, same.cellOf, same.size]
  exact live

theorem valueAt_eq_of_missing (same : SameNames s t) {i : Nat} (missing : s.constantAt i = none) :
    t.valueAt i = s.valueAt i := by
  have outside : s.cells.size ≤ i := by simpa [constantAt] using missing
  rw [valueAt, valueAt, Array.getElem?_eq_none outside,
    Array.getElem?_eq_none (same.size.symm ▸ outside)]

theorem eq (same : SameNames s t) (values : ∀ i, t.valueAt i = s.valueAt i)
    (flags : ∀ i, t.constantAt i = s.constantAt i) : t = s := by
  have cells : t.cells = s.cells := by
    apply Array.ext same.size
    intro i here there
    have value : t.cells[i].value = s.cells[i].value := by simpa [valueAt, here, there] using values i
    have flag : t.cells[i].constant = s.cells[i].constant := by
      simpa [constantAt, here, there] using flags i
    exact congrArg₂ Cell.mk value flag
  exact congrArg₂ Store.mk cells same.named

end SameNames

theorem sameNames_updateCell (s : Store α) (cell : Nat) (f : Cell α → Cell α) :
    SameNames s (s.updateCell cell f) := ⟨rfl, Array.size_modify⟩

theorem sameNames_foldl {κ : Type} {step : Store α → κ → Store α}
    (keeps : ∀ s k, SameNames s (step s k)) (ks : List κ) (s : Store α) :
    SameNames s (ks.foldl step s) := by
  induction ks generalizing s with
  | nil => exact SameNames.refl s
  | cons k ks ih => exact (keeps s k).trans (ih (step s k))

theorem getElem?_updateCell (s : Store α) (cell i : Nat) (f : Cell α → Cell α) :
    (s.updateCell cell f).cells[i]? = if cell = i then (s.cells[i]?).map f else s.cells[i]? :=
  Array.getElem?_modify

@[simp] theorem valueAt_setConstant (s : Store α) (v : Variable) (constant : Bool) (i : Nat) :
    (s.setConstant v constant).valueAt i = s.valueAt i := by
  rw [valueAt, valueAt, setConstant, getElem?_updateCell]
  split
  · rw [Option.map_map]
    rfl
  · rfl

theorem constantAt_setConstant (s : Store α) (v : Variable) (constant : Bool) (i : Nat) :
    (s.setConstant v constant).constantAt i =
      if s.cellOf v = i then (s.constantAt i).map fun _ => constant else s.constantAt i := by
  rw [constantAt, constantAt, setConstant, getElem?_updateCell]
  split
  · rw [Option.map_map, Option.map_map]
    rfl
  · rfl

def setConstants (s : Store α) (entries : List (Variable × Bool)) : Store α :=
  entries.foldl (fun s entry => s.setConstant entry.1 entry.2) s

theorem sameNames_setConstants (s : Store α) (entries : List (Variable × Bool)) :
    SameNames s (s.setConstants entries) :=
  sameNames_foldl (fun s _ => s.sameNames_updateCell _ _) entries s

@[simp] theorem valueAt_setConstants (s : Store α) (entries : List (Variable × Bool)) (i : Nat) :
    (s.setConstants entries).valueAt i = s.valueAt i := by
  induction entries generalizing s with
  | nil => rfl
  | cons entry entries ih => exact (ih _).trans (valueAt_setConstant s entry.1 entry.2 i)

theorem constantAt_setConstants (s : Store α) (entries : List (Variable × Bool)) (i : Nat)
    (constant : Bool) (agree : ∀ entry ∈ entries, s.cellOf entry.1 = i → entry.2 = constant) :
    (s.setConstants entries).constantAt i =
      if ∃ entry ∈ entries, s.cellOf entry.1 = i then (s.constantAt i).map fun _ => constant
      else s.constantAt i := by
  induction entries generalizing s with
  | nil => simp [setConstants]
  | cons entry entries ih =>
    have head := agree entry List.mem_cons_self
    have tail : (s.setConstants (entry :: entries)).constantAt i =
        if ∃ entry ∈ entries, s.cellOf entry.1 = i then
          ((s.setConstant entry.1 entry.2).constantAt i).map fun _ => constant
        else (s.setConstant entry.1 entry.2).constantAt i :=
      ih (s.setConstant entry.1 entry.2) fun other member => agree other (List.mem_cons_of_mem _ member)
    rw [tail, constantAt_setConstant]
    by_cases here : s.cellOf entry.1 = i
    · cases s.constantAt i <;> simp [here, head here]
    · simp only [here, if_false, List.mem_cons, or_and_right, exists_or, exists_eq_left, false_or]

end Cells

section Guards

variable {α : Type}

theorem hold_eq (s : Store α) (guard : Guard) :
    s.hold guard = s.setConstants (guard.saved.map fun entry => (entry.1, true)) := by
  rw [hold, setConstants, List.foldl_map]

theorem sameNames_hold (s : Store α) (guard : Guard) : SameNames s (s.hold guard) := by
  rw [hold_eq]
  exact s.sameNames_setConstants _

theorem sameNames_release (s : Store α) (guard : Guard) : SameNames s (s.release guard) :=
  s.sameNames_setConstants guard.saved.reverse

theorem valueAt_hold (s : Store α) (guard : Guard) (i : Nat) :
    (s.hold guard).valueAt i = s.valueAt i := by
  rw [hold_eq, valueAt_setConstants]

theorem valueAt_release (s : Store α) (guard : Guard) (i : Nat) :
    (s.release guard).valueAt i = s.valueAt i :=
  s.valueAt_setConstants guard.saved.reverse i

variable [Scalar α]

theorem cell_eq (s : Store α) (v : Variable) : s.cell v = (s.cells[s.cellOf v]?).getD ⟨0, false⟩ :=
  Array.getD_eq_getD_getElem?

theorem value_eq_valueAt (s : Store α) (v : Variable) : s.value v = (s.valueAt (s.cellOf v)).getD 0 := by
  rw [value, cell_eq, valueAt]
  cases s.cells[s.cellOf v]? <;> rfl

theorem value_of_isLinked {s : Store α} {v w : Variable} (linked : s.isLinked v w) : s.value v = s.value w := by
  rw [value_eq_valueAt, value_eq_valueAt, isLinked_iff.mp linked]

theorem isConstant_eq (s : Store α) (v : Variable) :
    s.isConstant v = (s.constantAt (s.cellOf v)).getD false := by
  rw [isConstant, cell_eq, constantAt]
  cases s.cells[s.cellOf v]? <;> rfl

theorem SameNames.value_congr {s t : Store α} (names : SameNames s t)
    (values : ∀ i, t.valueAt i = s.valueAt i) : t.value = s.value := by
  funext v
  rw [value_eq_valueAt, value_eq_valueAt, names.cellOf, values]

theorem SameNames.isConstant_congr {s t : Store α} (names : SameNames s t)
    (flags : ∀ i, t.constantAt i = s.constantAt i) : t.isConstant = s.isConstant := by
  funext v
  rw [isConstant_eq, isConstant_eq, names.cellOf, flags]

theorem exists_saved_iff (s : Store α) (vs : List Variable) (i : Nat) :
    (∃ entry ∈ (s.guardFor vs).saved, s.cellOf entry.1 = i) ↔ ∃ v ∈ vs, s.cellOf v = i := by
  constructor
  · rintro ⟨entry, saved, names⟩
    obtain ⟨v, first, rfl⟩ := List.mem_map.mp saved
    exact ⟨v, s.distinct_subset vs first, names⟩
  · rintro ⟨v, member, names⟩
    obtain ⟨first, found, same⟩ := s.exists_mem_distinct member
    exact ⟨(first, s.isConstant first), List.mem_map_of_mem found, same.symm.trans names⟩

theorem constantAt_hold (s : Store α) (vs : List Variable) (i : Nat) :
    (s.hold (s.guardFor vs)).constantAt i =
      if ∃ v ∈ vs, s.cellOf v = i then (s.constantAt i).map fun _ => true else s.constantAt i := by
  have agree : ∀ entry ∈ (s.guardFor vs).saved.map (fun entry => (entry.1, true)),
      s.cellOf entry.1 = i → entry.2 = true := by
    intro entry member _
    obtain ⟨_, _, rfl⟩ := List.mem_map.mp member
    rfl
  rw [hold_eq, constantAt_setConstants s _ i true agree]
  simp only [List.mem_map, exists_exists_and_eq_and, exists_saved_iff]

theorem constantAt_hold_congr {s t : Store α} (names : SameNames s t)
    (flags : ∀ i, t.constantAt i = s.constantAt i) (vs : List Variable) (i : Nat) :
    (t.hold (t.guardFor vs)).constantAt i = (s.hold (s.guardFor vs)).constantAt i := by
  rw [constantAt_hold, constantAt_hold, flags]
  simp only [names.cellOf]

theorem guardFor_congr {s t : Store α} (names : SameNames s t)
    (flags : ∀ i, t.constantAt i = s.constantAt i) (vs : List Variable) : t.guardFor vs = s.guardFor vs := by
  have linked : t.isLinked = s.isLinked := funext₂ names.isLinked
  rw [guardFor, guardFor, distinct, distinct, linked, names.isConstant_congr flags]

/-- A guard taken of a store puts back every flag of it, however the values have changed. -/
theorem constantAt_release (s t : Store α) (vs : List Variable) (names : SameNames s t)
    (held : ∀ i, t.constantAt i = (s.hold (s.guardFor vs)).constantAt i) (i : Nat) :
    (t.release (s.guardFor vs)).constantAt i = s.constantAt i := by
  have agree : ∀ entry ∈ (s.guardFor vs).saved.reverse,
      t.cellOf entry.1 = i → entry.2 = (s.constantAt i).getD false := by
    intro entry member here
    obtain ⟨v, _, rfl⟩ := List.mem_map.mp (List.mem_reverse.mp member)
    rw [names.cellOf] at here
    rw [← here]
    exact s.isConstant_eq v
  have step : (t.release (s.guardFor vs)).constantAt i =
      (t.setConstants (s.guardFor vs).saved.reverse).constantAt i := rfl
  rw [step, constantAt_setConstants t _ i _ agree, held, constantAt_hold]
  simp only [List.mem_reverse, names.cellOf, exists_saved_iff]
  split
  · cases s.constantAt i <;> rfl
  · rfl

end Guards

end PlaneSketch.Store

import PlaneSketch.Store
import Mathlib.Data.List.Nodup

/-! The first entry of each class of a list, and the first variable of each cell. -/
namespace PlaneSketch

section Firsts

variable {κ μ : Type}

/-- Taking the first entry of each class goes on with what is not in the class of the head. -/
@[elab_as_elim]
theorem firsts_induction (r : κ → κ → Bool) {motive : List κ → Prop} (nil : motive [])
    (cons : ∀ x xs, motive (xs.filter fun y => r y x = false) → motive (x :: xs)) :
    ∀ xs, motive xs
  | [] => nil
  | x :: xs => cons x xs (firsts_induction r nil cons (xs.filter fun y => r y x = false))
termination_by xs => xs.length
decreasing_by exact Nat.lt_succ_of_le (List.length_filter_le _ _)

theorem eraseDupsBy_subset (r : κ → κ → Bool) (xs : List κ) : xs.eraseDupsBy r ⊆ xs := by
  induction xs using firsts_induction r with
  | nil => simp
  | cons x xs ih =>
    rw [List.eraseDupsBy_cons]
    intro y member
    rcases List.mem_cons.mp member with rfl | later
    · exact List.mem_cons_self
    · exact List.mem_cons_of_mem _ (List.mem_of_mem_filter (ih later))

private theorem exists_mem_eraseDupsBy {r : κ → κ → Bool} (refl : ∀ x, r x x = true) {xs : List κ} {y : κ}
    (member : y ∈ xs) : ∃ x ∈ xs.eraseDupsBy r, r y x = true := by
  induction xs using firsts_induction r with
  | nil => cases member
  | cons x xs ih =>
    rw [List.eraseDupsBy_cons]
    cases same : r y x with
    | true => exact ⟨x, List.mem_cons_self, same⟩
    | false =>
      have later : y ∈ xs := by
        rcases List.mem_cons.mp member with rfl | later
        · simp [refl] at same
        · exact later
      obtain ⟨first, found, related⟩ := ih (List.mem_filter.mpr ⟨later, by simpa using same⟩)
      exact ⟨first, List.mem_cons_of_mem _ found, related⟩

private theorem pairwise_eraseDupsBy (r : κ → κ → Bool) (xs : List κ) :
    (xs.eraseDupsBy r).Pairwise fun x y => r y x = false := by
  induction xs using firsts_induction r with
  | nil => simp
  | cons x xs ih =>
    rw [List.eraseDupsBy_cons, List.pairwise_cons]
    refine ⟨?_, ih⟩
    intro y member
    simpa using (List.mem_filter.mp (eraseDupsBy_subset r _ member)).2

private theorem eraseDupsBy_concat (r : κ → κ → Bool) (xs : List κ) (y : κ) :
    (xs ++ [y]).eraseDupsBy r =
      if (xs.eraseDupsBy r).any (r y) then xs.eraseDupsBy r else xs.eraseDupsBy r ++ [y] := by
  induction xs using firsts_induction r with
  | nil => simp [List.eraseDupsBy_cons]
  | cons x xs ih =>
    rw [List.cons_append, List.eraseDupsBy_cons, List.eraseDupsBy_cons, List.filter_append, List.any_cons]
    cases same : r y x with
    | true => simp [same]
    | false =>
      have kept : [y].filter (fun z => r z x = false) = [y] := by simp [same]
      rw [kept, ih, Bool.false_or]
      split <;> rfl

theorem eraseDupsBy_map (r : μ → μ → Bool) (f : κ → μ) (xs : List κ) :
    (xs.map f).eraseDupsBy r = (xs.eraseDupsBy fun x y => r (f x) (f y)).map f := by
  induction xs using firsts_induction fun x y => r (f x) (f y) with
  | nil => rfl
  | cons x xs ih =>
    rw [List.map_cons, List.eraseDupsBy_cons, List.eraseDupsBy_cons, List.map_cons, ← ih,
      List.filter_map]
    rfl

theorem eraseDupsBy_congr {r q : κ → κ → Bool} {xs : List κ}
    (agree : ∀ x ∈ xs, ∀ y ∈ xs, r x y = q x y) : xs.eraseDupsBy r = xs.eraseDupsBy q := by
  induction xs using firsts_induction r with
  | nil => rfl
  | cons x xs ih =>
    have kept : (xs.filter fun y => r y x = false) = xs.filter fun y => q y x = false :=
      List.filter_congr fun y member => by rw [agree y (List.mem_cons_of_mem _ member) x List.mem_cons_self]
    have inside : ∀ y ∈ xs.filter (fun y => r y x = false), y ∈ x :: xs :=
      fun y member => List.mem_cons_of_mem _ (List.mem_of_mem_filter member)
    rw [List.eraseDupsBy_cons, List.eraseDupsBy_cons, ← kept,
      ih fun y first z second => agree y (inside y first) z (inside z second)]

end Firsts

namespace Store

variable {α : Type}

@[simp] theorem isLinked_self (s : Store α) (v : Variable) : s.isLinked v v = true := by
  simp [isLinked]

theorem isLinked_iff {s : Store α} {v w : Variable} :
    s.isLinked v w = true ↔ s.cellOf v = s.cellOf w := by
  simp [isLinked]

theorem isLinked_comm (s : Store α) (v w : Variable) : s.isLinked v w = s.isLinked w v :=
  Bool.beq_comm

theorem distinct_subset (s : Store α) (vs : List Variable) : s.distinct vs ⊆ vs :=
  eraseDupsBy_subset _ _

theorem exists_mem_distinct (s : Store α) {vs : List Variable} {v : Variable} (member : v ∈ vs) :
    ∃ w ∈ s.distinct vs, s.cellOf v = s.cellOf w := by
  obtain ⟨w, found, linked⟩ := exists_mem_eraseDupsBy s.isLinked_self member
  exact ⟨w, found, isLinked_iff.mp linked⟩

theorem nodup_cells_distinct (s : Store α) (vs : List Variable) :
    ((s.distinct vs).map s.cellOf).Nodup := by
  rw [List.Nodup, List.pairwise_map]
  apply (pairwise_eraseDupsBy s.isLinked vs).imp
  intro v w apart same
  simp [isLinked, same] at apart

theorem distinct_concat (s : Store α) (vs : List Variable) (v : Variable) :
    s.distinct (vs ++ [v]) = if (s.distinct vs).any (s.isLinked v) then s.distinct vs else s.distinct vs ++ [v] :=
  eraseDupsBy_concat ..

/-- The cells of the firsts are the cells of all, each once and in the order of first use. -/
theorem map_cellOf_distinct (s : Store α) (vs : List Variable) :
    (s.distinct vs).map s.cellOf = (vs.map s.cellOf).eraseDups :=
  (eraseDupsBy_map _ _ _).symm

end Store

end PlaneSketch

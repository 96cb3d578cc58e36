import PlaneSketch.Proofs.Store.History

/-! Two groups of variables without a link between them. Writes to variables of the one group and links
among them leave the other group as it is, and keep the groups apart. What is done to the variables of a
forest is done to the store that it is seen as. -/
namespace PlaneSketch

open Keeping

section Unchanged

variable {α σ ε : Type} [Keeping α σ ε] {handles : List Variable} {s t u : σ}

theorem Unchanged.refl (handles : List Variable) (s : σ) : Unchanged handles s s :=
  ⟨fun _ _ => rfl, fun _ _ _ _ => rfl⟩

private theorem Unchanged.trans (first : Unchanged handles s t) (second : Unchanged handles t u) :
    Unchanged handles s u :=
  ⟨fun x member => (second.1 x member).trans (first.1 x member),
    fun x left y right => (second.2 x left y right).trans (first.2 x left y right)⟩

end Unchanged

namespace Store

variable {α : Type}

/-- Every variable names a cell. -/
def Closed (s : Store α) : Prop := ∀ v : Variable, v.index < s.named.size → s.Live v

instance (s : Store α) : Decidable s.Closed :=
  decidable_of_iff (∀ i < s.named.size, s.Live ⟨i⟩)
    ⟨fun each v inside => each v.index inside, fun closed i inside => closed ⟨i⟩ inside⟩

private theorem SameNames.closed {s t : Store α} (names : SameNames s t) (closed : s.Closed) : t.Closed :=
  fun v inside => names.live (closed v (names.named ▸ inside))

/-- There are the variables of both groups, and none is linked to one of the other group. -/
structure Apart (left right : List Variable) (s : Store α) : Prop where
  closed : s.Closed
  leftInside : ∀ v ∈ left, v.index < s.named.size
  rightInside : ∀ v ∈ right, v.index < s.named.size
  unlinked : ∀ v ∈ left, ∀ w ∈ right, s.isLinked v w = false

theorem Apart.symm {left right : List Variable} {s : Store α} (apart : Apart left right s) :
    Apart right left s where
  closed := apart.closed
  leftInside := apart.rightInside
  rightInside := apart.leftInside
  unlinked v first w second := by
    rw [isLinked_comm]
    exact apart.unlinked w second v first

variable [Scalar α]

private theorem Closed.link {s : Store α} (closed : s.Closed) {v w : Variable}
    (inside : w.index < s.named.size) : (s.link v w).Closed := by
  intro x old
  rw [(s.size_link v w).1] at old
  rw [Live, s.cellOf_link old, (s.size_link v w).2]
  split
  · exact closed w inside
  · exact closed x old

namespace Apart

variable {left right : List Variable} {s : Store α}

private theorem write (apart : Apart left right s) {v : Variable} (inside : v ∈ left) (write : Write α) :
    Apart left right (s.write v write) ∧ Unchanged right s (s.write v write) := by
  rw [write_eq]
  have names : SameNames s (s.updateCell (s.cellOf v) write.apply) := s.sameNames_updateCell ..
  refine ⟨⟨names.closed apart.closed, ?_, ?_, ?_⟩, ?_, ?_⟩
  · rw [names.named]
    exact apart.leftInside
  · rw [names.named]
    exact apart.rightInside
  · intro x first y second
    rw [names.isLinked]
    exact apart.unlinked x first y second
  · intro x member
    have unlinked : ¬s.cellOf v = s.cellOf x := by
      rw [← isLinked_iff, apart.unlinked v inside x member]
      exact Bool.false_ne_true
    change (s.updateCell (s.cellOf v) write.apply).cell x = s.cell x
    rw [cell_eq, cell_eq, names.cellOf, getElem?_updateCell, if_neg unlinked]
  · exact fun x _ y _ => names.isLinked x y

private theorem link (apart : Apart left right s) {v w : Variable} (first : v ∈ left) (second : w ∈ left) :
    Apart left right (s.link v w) ∧ Unchanged right s (s.link v w) := by
  have offV : ∀ x ∈ right, s.isLinked v x = false := fun x member => apart.unlinked v first x member
  have offW : ∀ x ∈ right, s.isLinked w x = false := fun x member => apart.unlinked w second x member
  have live : s.Live w := apart.closed w (apart.leftInside w second)
  refine ⟨⟨apart.closed.link (apart.leftInside w second), ?_, ?_, ?_⟩, ?_, ?_⟩
  · rw [(s.size_link v w).1]
    exact apart.leftInside
  · rw [(s.size_link v w).1]
    exact apart.rightInside
  · intro x member y other
    rw [s.isLinked_link (apart.leftInside x member) (apart.rightInside y other), apart.unlinked x member y other,
      offV y other, offW y other, Bool.or_false, Bool.and_false, Bool.or_false]
  · intro x member
    change (s.link v w).cell x = s.cell x
    cases known : s.isLinked v w with
    | true => rw [Store.link, if_pos known]
    | false =>
      rw [s.cell_link known live (apart.rightInside x member), offV x member, offW x member, Bool.or_false,
        if_neg Bool.false_ne_true]
  · intro x member y other
    change (s.link v w).isLinked x y = s.isLinked x y
    rw [s.isLinked_link (apart.rightInside x member) (apart.rightInside y other), offV x member, offW x member,
      Bool.or_false, Bool.false_and, Bool.or_false]

theorem touch (apart : Apart left right s) {act : Touch α} (within : act.variables ⊆ left) :
    Apart left right (touch s act) ∧ Unchanged right s (touch s act) := by
  cases act with
  | write v write => exact apart.write (within List.mem_cons_self) write
  | link v w => exact apart.link (within List.mem_cons_self) (within (List.mem_cons_of_mem v List.mem_cons_self))

theorem touchAll (apart : Apart left right s) {touches : List (Touch α)}
    (within : ∀ act ∈ touches, act.variables ⊆ left) :
    Apart left right (touchAll s touches) ∧ Unchanged right s (touchAll s touches) := by
  induction touches generalizing s with
  | nil => exact ⟨apart, .refl right s⟩
  | cons act touches ih =>
    obtain ⟨first, rest⟩ := List.forall_mem_cons.mp within
    obtain ⟨onward, same⟩ := apart.touch first
    obtain ⟨further, still⟩ := ih onward rest
    exact ⟨further, same.trans still⟩

theorem touchEither (apart : Apart left right s) {touches : List (Touch α)}
    (within : ∀ act ∈ touches, act.variables ⊆ left ∨ act.variables ⊆ right) :
    Apart left right (Keeping.touchAll s touches) := by
  induction touches generalizing s with
  | nil => exact apart
  | cons act touches ih =>
    obtain ⟨first, rest⟩ := List.forall_mem_cons.mp within
    refine ih ?_ rest
    cases first with
    | inl leftwards => exact (apart.touch leftwards).1
    | inr rightwards => exact (apart.symm.touch rightwards).1.symm

end Apart

end Store

namespace Forest

variable {α : Type} [Scalar α] {f : Forest α}

/-- A forest that shows what touching its variables does to the store it is seen as. -/
structure Follows (f g : Forest α) (t : Store α) : Prop where
  flatten : g.flatten = t
  closed : Closed g
  continues : Continues f g

private theorem follows_touch (closed : Closed f) {act : Touch α}
    (inside : ∀ v ∈ act.variables, v.index < f.held.size) : Follows f (touch f act) (touch f.flatten act) := by
  cases act with
  | write v write =>
    refine ⟨?_, closed_change (closed_lookUp closed v) _ _, (continues_lookUp v).trans (continues_change _ _)⟩
    simp only [touch, Keeping.write, Store.write_eq, flatten_change, flatten_lookUp, cellOf_flatten]
  | link v w =>
    have first := inside v List.mem_cons_self
    have second := inside w (List.mem_cons_of_mem v List.mem_cons_self)
    exact ⟨flatten_link closed first second, closed_link closed first second, continues_link closed first second⟩

theorem follows_touchAll (closed : Closed f) {touches : List (Touch α)}
    (inside : ∀ act ∈ touches, ∀ v ∈ act.variables, v.index < f.held.size) :
    Follows f (touchAll f touches) (touchAll f.flatten touches) := by
  induction touches generalizing f with
  | nil => exact ⟨rfl, closed, .refl f⟩
  | cons act touches ih =>
    obtain ⟨first, rest⟩ := List.forall_mem_cons.mp inside
    have next := follows_touch closed first
    have later := ih next.closed fun other member v touched =>
      Nat.lt_of_lt_of_le (rest other member v touched) next.continues.held
    refine ⟨?_, later.closed, next.continues.trans later.continues⟩
    exact later.flatten.trans (congrArg (fun s => touchAll s touches) next.flatten)

end Forest

end PlaneSketch

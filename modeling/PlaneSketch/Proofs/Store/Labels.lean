import PlaneSketch.Store
import Mathlib.Logic.Relation

/-! Labels that tell classes apart. Joining two variables renames a label; the variables with one
label are then exactly those related by the smallest equivalence that holds of all pairs joined. -/
namespace PlaneSketch

/-- The smallest equivalence under which all pairs are related. -/
def Joined (pairs : List (Variable × Variable)) : Variable → Variable → Prop :=
  Relation.EqvGen fun v w => (v, w) ∈ pairs

namespace Joined

variable {pairs more : List (Variable × Variable)} {v w x : Variable}

theorem of_mem (member : (v, w) ∈ pairs) : Joined pairs v w :=
  Relation.EqvGen.rel v w member

theorem symm (joined : Joined pairs v w) : Joined pairs w v :=
  Relation.EqvGen.symm v w joined

theorem trans (first : Joined pairs v w) (second : Joined pairs w x) : Joined pairs v x :=
  Relation.EqvGen.trans v w x first second

theorem append (joined : Joined pairs v w) : Joined (pairs ++ more) v w :=
  Relation.EqvGen.mono (fun _ _ member => List.mem_append_left more member) v w joined

theorem of_last : Joined (pairs ++ [(v, w)]) v w :=
  of_mem (List.mem_append_right pairs List.mem_cons_self)

theorem label_eq (label : Variable → Nat) (pairs_eq : ∀ pair ∈ pairs, label pair.1 = label pair.2)
    (joined : Joined pairs v w) : label v = label w := by
  induction joined with
  | rel v w member => exact pairs_eq (v, w) member
  | refl v => rfl
  | symm v w _ ih => exact ih.symm
  | trans v w x _ _ first second => exact first.trans second

end Joined

/-- Among the first `count` variables, labels are equal exactly where joined pairs lead. -/
structure Labels (label : Variable → Nat) (count : Nat) (pairs : List (Variable × Variable)) : Prop where
  inside : ∀ pair ∈ pairs, pair.1.index < count ∧ pair.2.index < count
  iff : ∀ v w, v.index < count → w.index < count → (label v = label w ↔ Joined pairs v w)

namespace Labels

variable {label label' : Variable → Nat} {count : Nat} {pairs : List (Variable × Variable)} {v w : Variable}

theorem nil (label : Variable → Nat) : Labels label 0 [] :=
  ⟨fun _ member => absurd member List.not_mem_nil, fun _ _ inside => absurd inside (Nat.not_lt_zero _)⟩

theorem congr (labels : Labels label count pairs) (same : ∀ v, v.index < count → label' v = label v) :
    Labels label' count pairs where
  inside := labels.inside
  iff v w first second := by
    rw [same v first, same w second]
    exact labels.iff v w first second

theorem pairs_eq (labels : Labels label count pairs) :
    ∀ pair ∈ pairs, label pair.1 = label pair.2 := by
  intro pair member
  obtain ⟨first, second⟩ := labels.inside pair member
  exact (labels.iff pair.1 pair.2 first second).mpr (.of_mem member)

/-- Joining two variables gives the class of the one the label of the other. -/
theorem rename (labels : Labels label count pairs) (first : v.index < count) (second : w.index < count) :
    Labels (fun x => if label x = label v then label w else label x) count (pairs ++ [(v, w)]) where
  inside pair member := by
    rcases List.mem_append.mp member with earlier | last
    · exact labels.inside pair earlier
    · cases List.mem_singleton.mp last
      exact ⟨first, second⟩
  iff x y insideX insideY := by
    have toV : ∀ x, x.index < count → label x = label v → Joined (pairs ++ [(v, w)]) x v :=
      fun x inside same => ((labels.iff x v inside first).mp same).append
    have toW : ∀ x, x.index < count → label x = label w → Joined (pairs ++ [(v, w)]) x w :=
      fun x inside same => ((labels.iff x w inside second).mp same).append
    constructor
    · intro same
      split at same
      case isTrue hereX =>
        have x_w := (toV x insideX hereX).trans .of_last
        split at same
        case isTrue hereY => exact (toV x insideX hereX).trans (toV y insideY hereY).symm
        case isFalse => exact x_w.trans (toW y insideY same.symm).symm
      case isFalse =>
        split at same
        case isTrue hereY =>
          have y_w := (toV y insideY hereY).trans .of_last
          exact (toW x insideX same).trans y_w.symm
        case isFalse => exact ((labels.iff x y insideX insideY).mp same).append
    · intro joined
      apply joined.label_eq fun x => if label x = label v then label w else label x
      intro pair member
      rcases List.mem_append.mp member with earlier | last
      · simp only [labels.pairs_eq pair earlier]
      · cases List.mem_singleton.mp last
        simp

theorem fresh (labels : Labels label count pairs) (same : ∀ v, v.index < count → label' v = label v)
    (new : ∀ v, v.index < count → label' v ≠ label' ⟨count⟩) : Labels label' (count + 1) pairs where
  inside pair member := by
    obtain ⟨first, second⟩ := labels.inside pair member
    exact ⟨Nat.lt_succ_of_lt first, Nat.lt_succ_of_lt second⟩
  iff x y insideX insideY := by
    constructor
    · intro equal
      rcases Nat.lt_succ_iff_lt_or_eq.mp insideX with oldX | lastX
      · rcases Nat.lt_succ_iff_lt_or_eq.mp insideY with oldY | lastY
        · rw [same x oldX, same y oldY] at equal
          exact (labels.iff x y oldX oldY).mp equal
        · obtain ⟨_⟩ := y
          cases lastY
          exact absurd equal (new x oldX)
      · obtain ⟨_⟩ := x
        cases lastX
        rcases Nat.lt_succ_iff_lt_or_eq.mp insideY with oldY | lastY
        · exact absurd equal.symm (new y oldY)
        · obtain ⟨_⟩ := y
          cases lastY
          exact .refl _
    · apply Joined.label_eq
      intro pair member
      obtain ⟨first, second⟩ := labels.inside pair member
      rw [same _ first, same _ second, labels.pairs_eq pair member]

theorem share (labels : Labels label count pairs) (same : ∀ v, v.index < count → label' v = label v)
    (old : w.index < count) (shared : label' ⟨count⟩ = label w) :
    Labels label' (count + 1) (pairs ++ [(⟨count⟩, w)]) where
  inside pair member := by
    rcases List.mem_append.mp member with earlier | last
    · obtain ⟨first, second⟩ := labels.inside pair earlier
      exact ⟨Nat.lt_succ_of_lt first, Nat.lt_succ_of_lt second⟩
    · cases List.mem_singleton.mp last
      exact ⟨Nat.lt_succ_self count, Nat.lt_succ_of_lt old⟩
  iff x y insideX insideY := by
    -- A variable has the label of an old one to which it is joined: itself, or `w` if it is new.
    have origin : ∀ x : Variable, x.index < count + 1 → ∃ z : Variable, z.index < count ∧
        label' x = label z ∧ Joined (pairs ++ [(⟨count⟩, w)]) x z := by
      intro x inside
      rcases Nat.lt_succ_iff_lt_or_eq.mp inside with earlier | last
      · exact ⟨x, earlier, same x earlier, .refl x⟩
      · obtain ⟨_⟩ := x
        cases last
        exact ⟨w, old, shared, .of_last⟩
    obtain ⟨x', oldX, labelX, joinedX⟩ := origin x insideX
    obtain ⟨y', oldY, labelY, joinedY⟩ := origin y insideY
    constructor
    · intro equal
      rw [labelX, labelY] at equal
      have joined : Joined (pairs ++ [(⟨count⟩, w)]) x' y' :=
        ((labels.iff x' y' oldX oldY).mp equal).append
      exact (joinedX.trans joined).trans joinedY.symm
    · apply Joined.label_eq
      intro pair member
      rcases List.mem_append.mp member with earlier | last
      · obtain ⟨first, second⟩ := labels.inside pair earlier
        rw [same _ first, same _ second, labels.pairs_eq pair earlier]
      · cases List.mem_singleton.mp last
        rw [shared, same w old]

end Labels

end PlaneSketch

import PlaneSketch.Proofs.Relation.Mirror
import PlaneSketch.Proofs.Shape
import PlaneSketch.Relation.Build

/-! Which operands a relation can be built from: the ones it names itself, or arcs in place of their
circles. Building does not look at the variables. -/
namespace PlaneSketch

namespace Operand

/-- An operand can be given where another one is asked for: itself, or an arc for its circle. -/
inductive StandsFor : Operand → Operand → Prop
  | same (operand : Operand) : StandsFor operand operand
  | arc (a : Arc Variable) : StandsFor (.figure (.arc a)) (.figure (.circle a.circle))

def toList : Operand → List Variable
  | .figure f => f.toList
  | .bare v => [v]

def map (f : Variable → Variable) : Operand → Operand
  | .figure shape => .figure (shape.map f)
  | .bare v => .bare (f v)

variable {candidate operand : Operand}

theorem StandsFor.toList_subset (stands : StandsFor candidate operand) :
    operand.toList ⊆ candidate.toList := by
  cases stands with
  | same => exact List.Subset.refl _
  | arc a =>
    intro v member
    have named : v ∈ a.c.toList ++ [a.r] := member
    show v ∈ a.c.toList ++ [a.r] ++ a.p0.toList ++ a.p1.toList
    simp only [List.mem_append] at named ⊢
    exact .inl (.inl named)

private theorem point_eq_ok {p : Point Variable} :
    operand.point = .ok p ↔ StandsFor operand (.figure (.point p)) := by
  constructor
  · intro success
    unfold point at success
    split at success
    · cases success
      exact .same _
    · cases success
  · rintro ⟨⟩
    rfl

private theorem line_eq_ok {l : Line Variable} :
    operand.line = .ok l ↔ StandsFor operand (.figure (.line l)) := by
  constructor
  · intro success
    unfold line at success
    split at success
    · cases success
      exact .same _
    · cases success
  · rintro ⟨⟩
    rfl

private theorem circle_eq_ok {c : Circle Variable} :
    operand.circle = .ok c ↔ StandsFor operand (.figure (.circle c)) := by
  constructor
  · intro success
    unfold circle at success
    split at success
    · cases success
      exact .same _
    · cases success
      exact .arc _
    · cases success
  · rintro (_ | _)
    · rfl
    · rfl

private theorem bareVariable_eq_ok {v : Variable} :
    operand.bareVariable = .ok v ↔ StandsFor operand (.bare v) := by
  constructor
  · intro success
    unfold bareVariable at success
    split at success
    · cases success
      exact .same _
    · cases success
  · rintro ⟨⟩
    rfl

theorem two_eq_ok {operands : List Operand} {first second : Operand} :
    two operands = .ok (first, second) ↔ operands = [first, second] := by
  constructor
  · intro success
    unfold two at success
    split at success
    · cases success
      rfl
    · cases success
  · rintro rfl
    rfl

theorem atLeast_eq_ok {operands found : List Operand} {least : Nat} :
    atLeast least operands = .ok found ↔ found = operands ∧ least ≤ operands.length := by
  rw [atLeast]
  split
  case isTrue few => simp [Nat.not_le.mpr few]
  case isFalse enough => simp [Nat.le_of_not_lt enough, eq_comm]

end Operand

namespace Relation

open Operand (StandsFor)

def Enough : Relation → Prop
  | .equalValues vs => 2 ≤ vs.length
  | .colinearPoints points => 3 ≤ points.length
  | .equalLength lines => 2 ≤ lines.length
  | _ => True

theorem owned_eq_operands (relation : Relation) :
    relation.owned = relation.operands.flatMap Operand.toList := by
  cases relation with
  | equalValues vs => simp [owned, operands, Operand.toList, List.flatMap_map]
  | colinearPoints points =>
    simp only [owned, operands, List.flatMap_map]
    rfl
  | equalLength lines =>
    simp only [owned, operands, List.flatMap_map]
    rfl
  | _ => simp [owned, operands, Operand.toList, Figure.toList]

section Naturality

variable {ε κ μ ν ξ : Type}

theorem mapM_map {first : κ → μ} {act : μ → Except ε ν} {same : κ → Except ε ξ} {after : ξ → ν}
    (step : ∀ x, act (first x) = (same x).map after) (xs : List κ) :
    (xs.map first).mapM act = (xs.mapM same).map (List.map after) := by
  induction xs with
  | nil => rfl
  | cons x xs ih =>
    rw [List.map_cons, List.mapM_cons, List.mapM_cons, step, ih]
    cases same x with
    | error e => rfl
    | ok y => cases xs.mapM same <;> rfl

variable (f : Variable → Variable)

private theorem point_map (op : Operand) : (op.map f).point = op.point.map (Point.map f) := by
  rcases op with (_ | _ | _ | _) | _ <;> rfl

private theorem line_map (op : Operand) : (op.map f).line = op.line.map (Line.map f) := by
  rcases op with (_ | _ | _ | _) | _ <;> rfl

private theorem circle_map (op : Operand) : (op.map f).circle = op.circle.map (Circle.map f) := by
  rcases op with (_ | _ | _ | _) | _ <;> rfl

private theorem bareVariable_map (op : Operand) : (op.map f).bareVariable = op.bareVariable.map f := by
  rcases op with (_ | _ | _ | _) | _ <;> rfl

private theorem two_map (ops : List Operand) :
    Operand.two (ops.map (Operand.map f)) =
      (Operand.two ops).map (Prod.map (Operand.map f) (Operand.map f)) := by
  rcases ops with _ | ⟨a, _ | ⟨b, _ | ⟨c, rest⟩⟩⟩
  · rfl
  · rfl
  · rfl
  · simp [Operand.two, Except.map]

private theorem atLeast_map (least : Nat) (ops : List Operand) :
    Operand.atLeast least (ops.map (Operand.map f)) =
      (Operand.atLeast least ops).map (List.map (Operand.map f)) := by
  rw [Operand.atLeast, Operand.atLeast, List.length_map]
  split <;> rfl

private theorem build_map (kind : RelationKind) (ops : List Operand) :
    build kind (ops.map (Operand.map f)) = (build kind ops).map (map f) := by
  cases kind with
  | midpoint =>
    simp only [build, two_map]
    rcases Operand.two ops with _ | ⟨a, b⟩
    · rfl
    · simp only [Except.map, ok_bind, Prod.map_apply, point_map, line_map]
      cases a.point <;> cases b.line <;> rfl
  | pointOnCircle =>
    simp only [build, two_map]
    rcases Operand.two ops with _ | ⟨a, b⟩
    · rfl
    · simp only [Except.map, ok_bind, Prod.map_apply, point_map, circle_map]
      cases a.point <;> cases b.circle <;> rfl
  | tangentLine =>
    simp only [build, two_map]
    rcases Operand.two ops with _ | ⟨a, b⟩
    · rfl
    · simp only [Except.map, ok_bind, Prod.map_apply, line_map, circle_map]
      cases a.line <;> cases b.circle <;> rfl
  | equalValues =>
    simp only [build, atLeast_map]
    rcases Operand.atLeast 2 ops with _ | found
    · rfl
    · simp only [Except.map, ok_bind, mapM_map (bareVariable_map f)]
      cases found.mapM Operand.bareVariable <;> rfl
  | colinearPoints =>
    simp only [build, atLeast_map]
    rcases Operand.atLeast 3 ops with _ | found
    · rfl
    · simp only [Except.map, ok_bind, mapM_map (point_map f)]
      cases found.mapM Operand.point <;> rfl
  | equalLength =>
    simp only [build, atLeast_map]
    rcases Operand.atLeast 2 ops with _ | found
    · rfl
    · simp only [Except.map, ok_bind, mapM_map (line_map f)]
      cases found.mapM Operand.line <;> rfl

end Naturality

section Steps

variable {κ μ : Type} {ops : List Operand} {relation : Relation}

private theorem two_eq_ok {first : Operand → Operand.Sorted κ} {second : Operand → Operand.Sorted μ}
    {asFirst : κ → Operand} {asSecond : μ → Operand} {make : κ → μ → Relation}
    (one : ∀ op x, first op = .ok x ↔ StandsFor op (asFirst x))
    (other : ∀ op y, second op = .ok y ↔ StandsFor op (asSecond y)) :
    (do
      let (a, b) ← Operand.two ops
      return make (← first a) (← second b)) = .ok relation ↔
    ∃ x y, List.Forall₂ StandsFor ops [asFirst x, asSecond y] ∧ relation = make x y := by
  constructor
  · intro success
    obtain ⟨⟨a, b⟩, two, success⟩ := bind_eq_ok.mp success
    obtain ⟨x, found, success⟩ := bind_eq_ok.mp success
    obtain ⟨y, second, success⟩ := bind_eq_ok.mp success
    cases success
    cases Operand.two_eq_ok.mp two
    exact ⟨x, y, .cons ((one a x).mp found) (.cons ((other b y).mp second) .nil), rfl⟩
  · rintro ⟨x, y, stands, rfl⟩
    obtain ⟨a, rest, found, later, rfl⟩ := List.forall₂_cons_right_iff.mp stands
    obtain ⟨b, none, second, last, rfl⟩ := List.forall₂_cons_right_iff.mp later
    cases List.forall₂_nil_right_iff.mp last
    refine bind_eq_ok.mpr ⟨(a, b), rfl, bind_eq_ok.mpr ⟨x, (one a x).mpr found, ?_⟩⟩
    exact bind_eq_ok.mpr ⟨y, (other b y).mpr second, rfl⟩

private theorem atLeast_eq_ok {least : Nat} {each : Operand → Operand.Sorted κ}
    {asOperand : κ → Operand} {make : List κ → Relation}
    (one : ∀ op x, each op = .ok x ↔ StandsFor op (asOperand x)) :
    (do return make (← (← Operand.atLeast least ops).mapM each)) = .ok relation ↔
    ∃ xs, least ≤ xs.length ∧ List.Forall₂ StandsFor ops (xs.map asOperand) ∧ relation = make xs := by
  simp only [List.forall₂_map_right_iff, ← one]
  constructor
  · intro success
    obtain ⟨found, enough, success⟩ := bind_eq_ok.mp success
    obtain ⟨xs, visited, success⟩ := bind_eq_ok.mp success
    cases success
    obtain ⟨rfl, enough⟩ := Operand.atLeast_eq_ok.mp enough
    have stands := mapM_eq_ok.mp visited
    exact ⟨xs, stands.length_eq ▸ enough, stands, rfl⟩
  · rintro ⟨xs, enough, stands, rfl⟩
    refine bind_eq_ok.mpr ⟨ops, Operand.atLeast_eq_ok.mpr ⟨rfl, stands.length_eq ▸ enough⟩, ?_⟩
    exact bind_eq_ok.mpr ⟨xs, mapM_eq_ok.mpr stands, rfl⟩

end Steps

open Operand in
/-- A relation is built exactly from operands that stand for its own. -/
theorem build_eq_ok {kind : RelationKind} {ops : List Operand} {relation : Relation} :
    build kind ops = .ok relation ↔
      relation.kind = kind ∧ relation.Enough ∧ List.Forall₂ StandsFor ops relation.operands := by
  cases kind with
  | midpoint =>
    rw [build, two_eq_ok (fun _ _ => point_eq_ok) fun _ _ => line_eq_ok]
    constructor
    · rintro ⟨point, line, stands, rfl⟩
      exact ⟨rfl, trivial, stands⟩
    · rintro ⟨kind, -, stands⟩
      cases relation <;> cases kind
      exact ⟨_, _, stands, rfl⟩
  | pointOnCircle =>
    rw [build, two_eq_ok (fun _ _ => point_eq_ok) fun _ _ => circle_eq_ok]
    constructor
    · rintro ⟨point, circle, stands, rfl⟩
      exact ⟨rfl, trivial, stands⟩
    · rintro ⟨kind, -, stands⟩
      cases relation <;> cases kind
      exact ⟨_, _, stands, rfl⟩
  | tangentLine =>
    rw [build, two_eq_ok (fun _ _ => line_eq_ok) fun _ _ => circle_eq_ok]
    constructor
    · rintro ⟨line, circle, stands, rfl⟩
      exact ⟨rfl, trivial, stands⟩
    · rintro ⟨kind, -, stands⟩
      cases relation <;> cases kind
      exact ⟨_, _, stands, rfl⟩
  | equalValues =>
    rw [build, atLeast_eq_ok fun _ _ => bareVariable_eq_ok]
    constructor
    · rintro ⟨vs, enough, stands, rfl⟩
      exact ⟨rfl, enough, stands⟩
    · rintro ⟨kind, enough, stands⟩
      cases relation <;> cases kind
      exact ⟨_, enough, stands, rfl⟩
  | colinearPoints =>
    rw [build, atLeast_eq_ok fun _ _ => point_eq_ok]
    constructor
    · rintro ⟨points, enough, stands, rfl⟩
      exact ⟨rfl, enough, stands⟩
    · rintro ⟨kind, enough, stands⟩
      cases relation <;> cases kind
      exact ⟨_, enough, stands, rfl⟩
  | equalLength =>
    rw [build, atLeast_eq_ok fun _ _ => line_eq_ok]
    constructor
    · rintro ⟨lines, enough, stands, rfl⟩
      exact ⟨rfl, enough, stands⟩
    · rintro ⟨kind, enough, stands⟩
      cases relation <;> cases kind
      exact ⟨_, enough, stands, rfl⟩

/-- Operands through which those of a relation can be given build one that stands for it. -/
theorem exists_build {kind : RelationKind} {ops : List Operand} {relation : Relation}
    (f : Variable → Variable) (built : build kind (ops.map (Operand.map f)) = .ok relation) :
    ∃ origin, build kind ops = .ok origin ∧ origin.map f = relation := by
  have natural : build kind (ops.map (Operand.map f)) = (build kind ops).map (map f) := build_map f kind ops
  rw [natural] at built
  exact map_eq_ok.mp built

end Relation

end PlaneSketch

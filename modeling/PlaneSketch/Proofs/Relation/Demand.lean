import PlaneSketch.Proofs.Failure
import PlaneSketch.Relation.Build

/-! What each kind of relation demands of its operands, as a table: their number and what they are.
Building a relation finds the first fault against it. -/
namespace PlaneSketch

def OperandSort.servesAs (found wanted : OperandSort) : Bool :=
  found == wanted || (found == .figure .arc && wanted == .figure .circle)

inductive Demand
  /-- Operands of these sorts, in this order. -/
  | these (wanted : List OperandSort)
  /-- So many operands or more, all of one sort. -/
  | many (least : Nat) (wanted : OperandSort)

def RelationKind.demand : RelationKind → Demand
  | .midpoint => .these [.figure .point, .figure .line]
  | .equalValues => .many 2 .bare
  | .colinearPoints => .many 3 (.figure .point)
  | .pointOnCircle => .these [.figure .point, .figure .circle]
  | .equalLength => .many 2 (.figure .line)
  | .tangentLine => .these [.figure .line, .figure .circle]

namespace Demand

def MetBy : Demand → List OperandSort → Prop
  | these wanted, found => List.Forall₂ (fun found wanted => found.servesAs wanted = true) found wanted
  | many least wanted, found => least ≤ found.length ∧ ∀ sort ∈ found, sort.servesAs wanted = true

def countFaults : Demand → Nat → List OperandFault
  | these wanted, found => if found = wanted.length then [] else [.count wanted.length found]
  | many least _, found => if found < least then [.tooFew least found] else []

def mismatch? (wanted found : OperandSort) : Option OperandFault :=
  if found.servesAs wanted then none else some (.sort wanted found)

def sortFaults : Demand → List OperandSort → List OperandFault
  | these wanted, found => (found.zip wanted).filterMap fun pair => mismatch? pair.2 pair.1
  | many _ wanted, found => found.filterMap (mismatch? wanted)

/-- What is wrong with operands of the sorts `found`: their number, then each sort in order. -/
def faults (demand : Demand) (found : List OperandSort) : List OperandFault :=
  demand.countFaults found.length ++ demand.sortFaults found

private theorem mismatch?_eq_none {wanted found : OperandSort} :
    mismatch? wanted found = none ↔ found.servesAs wanted = true := by
  rw [mismatch?]
  split <;> simp_all

theorem faults_eq_nil {demand : Demand} {found : List OperandSort} :
    demand.faults found = [] ↔ demand.MetBy found := by
  cases demand with
  | these wanted =>
    rw [faults, MetBy, List.append_eq_nil_iff, List.forall₂_iff_zip]
    apply and_congr
    · simp [countFaults]
    · simp [sortFaults, mismatch?_eq_none]
  | many least wanted =>
    rw [faults, MetBy, List.append_eq_nil_iff]
    apply and_congr
    · simp [countFaults]
    · simp [sortFaults, mismatch?_eq_none]

end Demand

namespace Operand

variable (operand : Operand)

private theorem fault?_point : fault? operand.point = Demand.mismatch? (.figure .point) operand.sort := by
  rcases operand with (_ | _ | _ | _) | _ <;> rfl

private theorem fault?_line : fault? operand.line = Demand.mismatch? (.figure .line) operand.sort := by
  rcases operand with (_ | _ | _ | _) | _ <;> rfl

private theorem fault?_circle : fault? operand.circle = Demand.mismatch? (.figure .circle) operand.sort := by
  rcases operand with (_ | _ | _ | _) | _ <;> rfl

private theorem fault?_bareVariable : fault? operand.bareVariable = Demand.mismatch? .bare operand.sort := by
  rcases operand with (_ | _ | _ | _) | _ <;> rfl

end Operand

namespace Relation

section Steps

variable {κ μ : Type}

private theorem fault?_two {first : Operand → Operand.Sorted κ} {second : Operand → Operand.Sorted μ}
    {make : κ → μ → Relation} {one other : OperandSort}
    (judgeFirst : ∀ operand, fault? (first operand) = Demand.mismatch? one operand.sort)
    (judgeSecond : ∀ operand, fault? (second operand) = Demand.mismatch? other operand.sort)
    (operands : List Operand) :
    fault? (do
      let (a, b) ← Operand.two operands
      return make (← first a) (← second b)) =
    ((Demand.these [one, other]).faults (operands.map Operand.sort)).head? := by
  rcases operands with _ | ⟨a, _ | ⟨b, _ | ⟨c, rest⟩⟩⟩
  · rfl
  · rfl
  · have sorts : ((Demand.these [one, other]).sortFaults [a.sort, b.sort]).head? =
        (fault? (first a)).or (fault? (second b)) := by
      rw [judgeFirst, judgeSecond, Demand.sortFaults, List.head?_filterMap, List.zip_cons_cons,
        List.findSome?_cons, List.zip_cons_cons, List.findSome?_cons]
      cases Demand.mismatch? one a.sort <;> cases Demand.mismatch? other b.sort <;> rfl
    change _ = ((Demand.these [one, other]).sortFaults [a.sort, b.sort]).head?
    rw [sorts]
    change fault? (first a >>= fun x => second b >>= fun y => _) = _
    cases first a with
    | error e => rfl
    | ok x => cases second b <;> rfl
  · simp [Operand.two, Demand.faults, Demand.countFaults]

private theorem fault?_atLeast {least : Nat} {each : Operand → Operand.Sorted κ}
    {make : List κ → Relation} {sort : OperandSort}
    (judge : ∀ operand, fault? (each operand) = Demand.mismatch? sort operand.sort)
    (operands : List Operand) :
    fault? (do return make (← (← Operand.atLeast least operands).mapM each)) =
      ((Demand.many least sort).faults (operands.map Operand.sort)).head? := by
  rw [Demand.faults, Demand.countFaults, Demand.sortFaults, List.length_map, Operand.atLeast]
  split
  case isTrue few => rfl
  case isFalse enough =>
    rw [ok_bind, List.nil_append, List.head?_filterMap, List.findSome?_map]
    have fault := fault?_mapM each operands
    simp only [judge] at fault
    change fault? (operands.mapM each >>= fun xs => _) = _
    rw [← Function.comp_def] at fault
    rw [← fault]
    cases operands.mapM each <;> rfl

end Steps

theorem fault?_build (kind : RelationKind) (operands : List Operand) :
    fault? (build kind operands) = (kind.demand.faults (operands.map Operand.sort)).head? := by
  cases kind with
  | midpoint => exact fault?_two Operand.fault?_point Operand.fault?_line operands
  | equalValues => exact fault?_atLeast Operand.fault?_bareVariable operands
  | colinearPoints => exact fault?_atLeast Operand.fault?_point operands
  | pointOnCircle => exact fault?_two Operand.fault?_point Operand.fault?_circle operands
  | equalLength => exact fault?_atLeast Operand.fault?_line operands
  | tangentLine => exact fault?_two Operand.fault?_line Operand.fault?_circle operands

end Relation

end PlaneSketch

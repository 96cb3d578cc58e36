import PlaneSketch.Scalar
import PlaneSketch.Numeral.Layout

/-! Settings of the solver. -/
namespace PlaneSketch

structure Config (α : Type) where
  maxIterations : Nat
  /-- A total error up to this one counts as solved. -/
  tolerance : α
  relaxation : α
  dampedRelaxation : α
  deriving Repr, DecidableEq

inductive StepFactor
  | relaxation
  | dampedRelaxation
  deriving DecidableEq, Repr

def StepFactor.name : StepFactor → String
  | .relaxation => "relaxation"
  | .dampedRelaxation => "damped_relaxation"

/-- Settings under which relaxation could diverge or never end. -/
inductive ConfigFault (α : Type)
  | factor (which : StepFactor) (value : α)
  | tolerance (value : α)
  deriving Repr

def ConfigFault.message : ConfigFault Float → String
  | .factor which value => which.name ++ " must be in (0, 1), got " ++ messageText value
  | .tolerance value => "tolerance must be finite and non-negative, got " ++ messageText value

namespace Config

variable {α : Type} [Scalar α]

def standard : Config α := ⟨1000, 1 / 1000000000, 1 / 2, 1 / 10⟩

instance : Inhabited (Config α) := ⟨standard⟩

def checkFactor (which : StepFactor) (factor : α) : Except (ConfigFault α) Unit :=
  if 0 < factor ∧ factor < 1 then .ok () else .error (.factor which factor)

/-- Both step factors lie strictly between 0 and 1, and the tolerance is finite and not negative. -/
def validate (c : Config α) : Except (ConfigFault α) Unit := do
  checkFactor .relaxation c.relaxation
  checkFactor .dampedRelaxation c.dampedRelaxation
  if 0 ≤ c.tolerance ∧ Scalar.isFinite c.tolerance = true then .ok () else .error (.tolerance c.tolerance)

def stepFactor (c : Config α) (damped : Bool) : α := if damped then c.dampedRelaxation else c.relaxation

end Config

end PlaneSketch

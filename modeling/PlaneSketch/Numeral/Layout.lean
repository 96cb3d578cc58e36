import PlaneSketch.Numeral
import PlaneSketch.Numeral.Shortest

/-! How doubles are laid out as numerals, one record per form of output. -/
namespace PlaneSketch

structure Layout where
  /-- The digits that are shown of a finite magnitude. -/
  digits : Nat → Decimal
  /-- Which places of the first digit are written without an exponent. -/
  positional : Int → Bool
  /-- Whole numbers end in a point and a zero. -/
  wholePoint : Bool
  /-- Positive exponents carry a plus. -/
  plus : Bool

namespace Layout

/-- Documents and answers have the fewest digits, of two equally near choices the even one. -/
def json : Layout := ⟨Decimal.shortest .toEven, fun lead => decide (-5 ≤ lead ∧ lead < 16), true, true⟩

/-- Error messages and figure texts have the fewest digits too, of two equally near choices the
larger one, and never an exponent. -/
def message : Layout := ⟨Decimal.shortest .up, fun _ => true, false, false⟩

/-- Coordinates in logged events have the digits of messages. -/
def event : Layout := ⟨Decimal.shortest .up, fun lead => decide (-4 ≤ lead ∧ lead < 16), true, false⟩

/-- Status texts have three decimals and always an exponent. -/
def status : Layout := ⟨Decimal.rounded 3, fun _ => false, false, false⟩

def positionalNumeral (layout : Layout) (negative : Bool) (d : Decimal) : Numeral :=
  if d.lead < 0 then
    ⟨negative, ['0'], some (List.replicate (-d.lead - 1).toNat '0' ++ d.digits), none⟩
  else
    let places := d.lead.toNat + 1
    if d.digits.length ≤ places then
      ⟨negative, d.digits ++ List.replicate (places - d.digits.length) '0',
        if layout.wholePoint then some ['0'] else none, none⟩
    else ⟨negative, d.digits.take places, some (d.digits.drop places), none⟩

def scientificNumeral (layout : Layout) (negative : Bool) (d : Decimal) : Numeral :=
  let sign := if d.lead < 0 then .minus else if layout.plus then .plus else .unsigned
  ⟨negative, d.digits.take 1, if d.digits.length ≤ 1 then none else some (d.digits.drop 1),
    some (sign, Nat.toDigits 10 d.lead.natAbs)⟩

def numeral (layout : Layout) (negative : Bool) (d : Decimal) : Numeral :=
  if layout.positional d.lead then positionalNumeral layout negative d
  else scientificNumeral layout negative d

def ofFloat (layout : Layout) (x : Float) : Numeral :=
  layout.numeral (Binary64.isNegative x) (layout.digits (Binary64.magnitude x))

def text (layout : Layout) (x : Float) : String :=
  if x.isNaN then "NaN"
  else if x.isInf then (if Binary64.isNegative x then "-inf" else "inf")
  else String.ofList (layout.ofFloat x).chars

end Layout

def Numeral.ofFloat (x : Float) : Numeral := Layout.json.ofFloat x

def messageText (x : Float) : String := Layout.message.text x

def eventText (x : Float) : String := Layout.event.text x

def statusText (x : Float) : String := Layout.status.text x

end PlaneSketch

import Dryer.Library.Text
import Dryer.MachineSchema.MachineDoc
import Mathlib.Algebra.Order.Floor.Ring
import Mathlib.Algebra.Order.Round
import Mathlib.Data.Rat.Floor

/-!
# Quantities

Numbers with units. The numbers come from outside, with a total order; the units of one dimension
differ by a factor.
-/
namespace Dryer.MachineSchema
open Library

/-- The numbers of quantities. -/
class Numbers (κ : Type) extends LinearOrder κ where
  zero : κ
  /-- The finite number that a text reads as. -/
  parseFinite : String → Option κ
  scale : κ → ℚ → κ
  /-- The number rounded to a `u64`, when it is within `1e-6` of it. -/
  wholeUnits : κ → Option ℕ

inductive Dimension where
  | length
  | velocity
  | acceleration
  | time
  | power
  | voltage
  | current
  | frequency
  | temperature
  | resistance
  | memory
  deriving DecidableEq

def Dimension.debugText : Dimension → String
  | length => "Length"
  | velocity => "Velocity"
  | acceleration => "Acceleration"
  | time => "Time"
  | power => "Power"
  | voltage => "Voltage"
  | current => "Current"
  | frequency => "Frequency"
  | temperature => "Temperature"
  | resistance => "Resistance"
  | memory => "Memory"

/-- The units with their dimensions and their factors. -/
def unitTable : List (String × Dimension × ℚ) :=
  [("mm", .length, 1), ("m", .length, 1000), ("um", .length, 1 / 1000),
    ("mm/s", .velocity, 1), ("m/s", .velocity, 1000),
    ("mm/s^2", .acceleration, 1), ("m/s^2", .acceleration, 1000),
    ("s", .time, 1), ("ms", .time, 1 / 1000), ("us", .time, 1 / 1000000), ("min", .time, 60),
    ("W", .power, 1), ("kW", .power, 1000),
    ("V", .voltage, 1), ("mV", .voltage, 1 / 1000),
    ("A", .current, 1), ("mA", .current, 1 / 1000),
    ("Hz", .frequency, 1), ("kHz", .frequency, 1000), ("MHz", .frequency, 1000000),
    ("C", .temperature, 1),
    ("Ohm", .resistance, 1), ("kOhm", .resistance, 1000),
    ("B", .memory, 1), ("KiB", .memory, 1024), ("MiB", .memory, 1048576)]

inductive QuantityError where
  | missingUnit
  | badNumber (s : String)
  | unknownUnit (unit : String)
  | wrongDimension (expected got : Dimension)
  deriving DecidableEq

def QuantityError.toText : QuantityError → String
  | missingUnit => "quantity requires an explicit unit (e.g. \"300 mm/s\")"
  | badNumber s => s!"'{s}' is not a finite number"
  | unknownUnit unit => s!"unknown unit '{unit}'"
  | wrongDimension expected got =>
    s!"expected a {expected.debugText} quantity, got {got.debugText}"

/-- A number in the first unit of its dimension. -/
structure Quantity (κ : Type) where
  value : κ
  dimension : Dimension

namespace Quantity

variable {κ : Type} [Numbers κ]

def isNumberChar (c : Char) : Bool := isAsciiDigit c || c = '.' || c = '-' || c = '+'

def parse (raw : String) : Except QuantityError (Quantity κ) :=
  let rawTrimmed := (trim raw).toList
  let num := rawTrimmed.takeWhile isNumberChar
  let unit := trim (String.ofList (rawTrimmed.dropWhile isNumberChar))
  if num.isEmpty || unit.isEmpty then .error .missingUnit
  else
    match Numbers.parseFinite (String.ofList num) with
    | none => .error (.badNumber (String.ofList num))
    | some value =>
      match unitTable.lookup unit with
      | none => .error (.unknownUnit unit)
      | some (dimension, scale) => .ok { value := Numbers.scale value scale, dimension }

/-- A quantity of the dimension that is asked for. -/
def parseAs (raw : String) (expected : Dimension) : Except QuantityError (Quantity κ) :=
  match parse raw with
  | .error e => .error e
  | .ok quantity =>
    if quantity.dimension ≠ expected then .error (.wrongDimension expected quantity.dimension)
    else .ok quantity

end Quantity

/-! ## Exact numbers -/

namespace ExactNumbers

def digits (l : List Char) : ℕ := l.foldl (fun n c => 10 * n + (c.toNat - '0'.toNat)) 0

/-- Digits with a point among them or without. -/
def parseUnsigned (l : List Char) : Option ℚ :=
  let whole := l.takeWhile isAsciiDigit
  let fraction := (l.dropWhile isAsciiDigit).tail
  if (whole ++ fraction).isEmpty || !fraction.all isAsciiDigit ||
      (l.dropWhile isAsciiDigit).head?.any (· ≠ '.') then none
  else some ((digits (whole ++ fraction) : ℚ) / 10 ^ fraction.length)

def parse : List Char → Option ℚ
  | '-' :: rest => (parseUnsigned rest).map (-·)
  | '+' :: rest => parseUnsigned rest
  | l => parseUnsigned l

def wholeUnits (x : ℚ) : Option ℕ :=
  if round x ≤ 2 ^ 64 ∧ |x - round x| ≤ 1 / 1000000 then some (min (round x).toNat (2 ^ 64 - 1))
  else none

/-- Decimal numbers without rounding. -/
instance : Numbers ℚ where
  zero := 0
  parseFinite s := parse s.toList
  scale := (· * ·)
  wholeUnits := wholeUnits

end ExactNumbers

end Dryer.MachineSchema

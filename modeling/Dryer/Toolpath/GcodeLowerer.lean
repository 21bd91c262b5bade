import Dryer.ControlProtocol.Frames
import Dryer.Library.BoundedInt
import Dryer.Library.Text
import Dryer.MachineSchema.Quantities
import Std.Data.TreeMap

/-!
# The lowerer of G-code

A source text becomes commands, line by line. The lowerer keeps the feed rate, the mode and the
positions of the axes. A line is words of a letter and a number; other words are dropped.
-/
namespace Dryer.Toolpath
open Library ControlProtocol

/-- The numbers of the words, and what the lowerer makes of them. -/
class Decimals (φ : Type) where
  parse : String → Option φ
  /-- A thousand of it, as an `i64`. -/
  thousandths : φ → Int64
  /-- Micrometres per second from millimetres per minute, at least 1, as a `u64`. -/
  feedRate : φ → UInt64
  /-- The number as a `u64`. -/
  whole : φ → UInt64

structure LowererConfig where
  defaultFeedRateUmS : UInt64
  hotendName : String
  bedName : String

namespace LowererConfig

def default : LowererConfig where
  defaultFeedRateUmS := 10000
  hotendName := "hotend_heater"
  bedName := "bed_heater"

end LowererConfig

structure GcodeLowerer where
  config : LowererConfig
  currentFeedRateUmS : UInt64
  absolutePositioning : Bool
  positions : Std.TreeMap String Int64

/-- The variables of `lower_source`. -/
structure LowerState where
  lowerer : GcodeLowerer
  commands : List Command

/-! ## Words -/

/-- Without the comment, which a semicolon begins, or a bracket where there is none. -/
def cleanLine (s : String) : String :=
  let s := trim s
  if s.toList.contains ';' then trim (firstSegment s ';')
  else if s.toList.contains '(' then trim (firstSegment s '(')
  else s

section Tokens

variable (φ : Type) [Decimals φ]

/-- The letter and the number of a word. -/
def parseToken (word : String) : Option (Char × φ) :=
  match word.toList with
  | [] => none
  | letter :: rest => (Decimals.parse (String.ofList rest)).map (letter.toUpper, ·)

def parseTokens (line : String) : List (Char × φ) := (words line).filterMap (parseToken φ)

end Tokens

/-- The axis of a letter, if it is one of the axes. -/
def axisOf (axes : List String) (letter : Char) : Option String :=
  let axis := String.singleton letter.toLower
  if axis ∈ axes then some axis else none

/-- The axes that are homed. -/
def homeAxes : List String := ["x", "y", "z"]

/-- The axes that move. -/
def moveAxes : List String := ["x", "y", "z", "e"]

inductive LineCode where
  | absolute
  | relative
  | home
  | linear
  | hotendTarget
  | bedTarget
  | heartbeat
  deriving DecidableEq

def codeTable : List ((Char × UInt64) × LineCode) :=
  [(('G', 90), .absolute), (('G', 91), .relative), (('G', 28), .home), (('G', 0), .linear),
    (('G', 1), .linear), (('M', 104), .hotendTarget), (('M', 109), .hotendTarget),
    (('M', 140), .bedTarget), (('M', 190), .bedTarget), (('M', 105), .heartbeat)]

/-! ## Lowering -/

def GcodeLowerer.new (config : LowererConfig) : GcodeLowerer where
  config
  currentFeedRateUmS := config.defaultFeedRateUmS
  absolutePositioning := true
  positions := ∅

namespace LowerState

def start (lowerer : GcodeLowerer) : LowerState where
  lowerer
  commands := []

def setMode (s : LowerState) (absolute : Bool) : LowerState :=
  { s with lowerer := { s.lowerer with absolutePositioning := absolute } }

def emit (s : LowerState) (command : Command) : LowerState :=
  { s with commands := s.commands ++ [command] }

/-- Track an axis at a position. -/
def track (s : LowerState) (axis : String) (positionUm : Int64) : LowerState :=
  { s with lowerer := { s.lowerer with positions := s.lowerer.positions.insert axis positionUm } }

/-- The tracked position of an axis. -/
def positionUm (s : LowerState) (axis : String) : Int64 := s.lowerer.positions[axis]?.getD 0

def homeAxis (s : LowerState) (axis : String) : LowerState :=
  (s.emit (.home axis s.lowerer.currentFeedRateUmS)).track axis 0

/-- An axis in the mode of the lowerer; `none` where the distance or the position overflows. -/
def moveAxis (s : LowerState) (axis : String) (targetUm : Int64) : Option LowerState :=
  if s.lowerer.absolutePositioning then
    (I64.checkedSub targetUm (s.positionUm axis)).map fun deltaUm =>
      (s.emit (.move axis deltaUm s.lowerer.currentFeedRateUmS)).track axis targetUm
  else
    (I64.checkedAdd (s.positionUm axis) targetUm).map fun sumUm =>
      (s.emit (.move axis targetUm s.lowerer.currentFeedRateUmS)).track axis sumUm

section Lines

variable {φ : Type} [Decimals φ]

/-- All axes are homed where the words name none. -/
def home (s : LowerState) (params : List (Char × φ)) : LowerState :=
  let named := params.filterMap fun (axis, _) => axisOf homeAxes axis
  (if named.isEmpty then homeAxes else named).foldl homeAxis s

/-- The last feed rate of a line is that of all its moves. -/
def setFeedRate (s : LowerState) (params : List (Char × φ)) : LowerState :=
  let rates := params.filterMap fun (param, val) =>
    if param = 'F' then some (Decimals.feedRate val) else none
  { s with
    lowerer :=
      { s.lowerer with currentFeedRateUmS := rates.getLast?.getD s.lowerer.currentFeedRateUmS } }

/-- The axes of the words, with their numbers in micrometres. -/
def moveTargets (params : List (Char × φ)) : List (String × Int64) :=
  params.filterMap fun (param, val) =>
    (axisOf moveAxes param).map (·, Decimals.thousandths val)

def linear (s : LowerState) (params : List (Char × φ)) : Option LowerState :=
  (moveTargets params).foldlM (fun s (axis, targetUm) => s.moveAxis axis targetUm)
    (s.setFeedRate params)

def heaterTarget (s : LowerState) (heater : String) (tokens : List (Char × φ)) : LowerState :=
  match tokens.find? fun (p, _) => p = 'S' with
  | none => s
  | some (_, val) => s.emit (.setHeaterTarget heater (Decimals.thousandths val))

def lowerTokens (s : LowerState) : List (Char × φ) → Option LowerState
  | [] => some s
  | (letter, number) :: params =>
    match codeTable.lookup (letter, Decimals.whole number) with
    | none => some s
    | some .absolute => some (s.setMode true)
    | some .relative => some (s.setMode false)
    | some .home => some (s.home params)
    | some .linear => s.linear params
    | some .hotendTarget =>
      some (s.heaterTarget s.lowerer.config.hotendName ((letter, number) :: params))
    | some .bedTarget =>
      some (s.heaterTarget s.lowerer.config.bedName ((letter, number) :: params))
    | some .heartbeat => some (s.emit .heartbeat)

variable (φ)

def lowerLine (s : LowerState) (rawLine : String) : Option LowerState :=
  s.lowerTokens (parseTokens φ (cleanLine rawLine))

/-- The lines one after the other; `none` from the first overflow on. -/
def lowerLines (s : LowerState) (rawLines : List String) : Option LowerState :=
  rawLines.foldlM (lowerLine φ) s

end Lines

end LowerState

/-- The commands of a text, with the lowerer after it. -/
def GcodeLowerer.lowerSource (φ : Type) [Decimals φ] (lowerer : GcodeLowerer)
    (gcodeText : String) : Option LowerState :=
  (LowerState.start lowerer).lowerLines φ (lines gcodeText)

/-! ## Exact decimals -/

/-- Decimal numbers without rounding, and conversions that saturate. -/
instance : Decimals ℚ where
  parse s := MachineSchema.ExactNumbers.parse s.toList
  thousandths q :=
    let scaled := if 0 ≤ q then ⌊q * 1000⌋ else ⌈q * 1000⌉
    Int64.ofInt (max (-2 ^ 63) (min scaled (2 ^ 63 - 1)))
  feedRate q := UInt64.ofNat (min ⌊max (q * 1000 / 60) 1⌋.toNat (2 ^ 64 - 1))
  whole q := UInt64.ofNat (min ⌊q⌋.toNat (2 ^ 64 - 1))

end Dryer.Toolpath

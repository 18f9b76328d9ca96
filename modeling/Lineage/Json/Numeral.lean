import Lineage.Json.Basic
import Lineage.Json.Fault

/-!
# Numbers

A number is read digit by digit.  Its leading digits make up a `significand` of at most 64 bits; digits that
would not fit are left out, and `scale` is the power of ten that makes up for them and for the digits after
the point.  A number without point and exponent that fits into 64 bits is an integer; every other is the
significand, as the nearest floating point number, multiplied or divided by a power of ten.
-/

namespace Lineage.Json

namespace Numeral

/-- The part of a number that was read last. -/
inductive Part where
  | minus | zero | whole | point | fraction | mark | markSign | power
  deriving DecidableEq, Repr

namespace Part

/-- What a byte is after a part of a number. -/
inductive Next where
  | part (p : Part)
  /-- The byte is no part of the number. -/
  | ended
  | broken
  deriving DecidableEq, Repr

def isDigit (b : UInt8) : Bool :=
  0x30 ≤ b && b ≤ 0x39

def isMark (b : UInt8) : Bool :=
  b == 0x65 || b == 0x45

def isSign (b : UInt8) : Bool :=
  b == 0x2B || b == 0x2D

/-- The part that the first digit of a number begins. -/
def first (b : UInt8) : Part :=
  if b = 0x30 then .zero else .whole

/-- What a byte is after the digits of a whole part. -/
def afterWhole (b : UInt8) : Next :=
  if isMark b then .part .mark else if b = 0x2E then .part .point else .ended

def next (p : Part) (b : UInt8) : Next :=
  match p with
  | .minus => if isDigit b then .part (first b) else .broken
  | .zero => if isDigit b then .broken else afterWhole b
  | .whole => if isDigit b then .part .whole else afterWhole b
  | .point => if isDigit b then .part .fraction else .broken
  | .fraction => if isDigit b then .part .fraction else if isMark b then .part .mark else .ended
  | .mark => if isDigit b then .part .power else if isSign b then .part .markSign else .broken
  | .markSign => if isDigit b then .part .power else .broken
  | .power => if isDigit b then .part .power else .ended

/-- Whether a number may end after a part. -/
def mayEnd : Part → Bool
  | .zero | .whole | .fraction | .power => true
  | .minus | .point | .mark | .markSign => false

end Part

end Numeral

structure Numeral where
  part : Numeral.Part
  negative : Bool
  significand : Nat
  scale : Int
  /-- No further digit of this part is kept. -/
  full : Bool
  powerNegative : Bool
  power : Nat
  /-- The power has left the range of 32 bits, and the number is zero. -/
  vanished : Bool

namespace Numeral

/-- The largest integer. -/
def maxSignificand : Nat := 0xFFFFFFFFFFFFFFFF

/-- The size of the least integer. -/
def maxNegative : Nat := 0x8000000000000000

def maxPower : Nat := 0x7FFFFFFF

def minus : Numeral :=
  ⟨.minus, true, 0, 0, false, false, 0, false⟩

/-- The value of a digit. -/
def digit (b : UInt8) : Nat :=
  b.toNat - 0x30

/-- A number that begins with a digit. -/
def ofDigit (b : UInt8) : Numeral :=
  { minus with negative := false, part := Part.first b, significand := digit b }

def fits (n : Numeral) (d : Nat) : Bool :=
  !n.full && n.significand * 10 + d ≤ maxSignificand

def wholeDigit (n : Numeral) (d : Nat) : Numeral :=
  if n.fits d then { n with significand := n.significand * 10 + d }
  else { n with full := true, scale := n.scale + 1 }

def fractionDigit (n : Numeral) (d : Nat) : Numeral :=
  if n.fits d then { n with significand := n.significand * 10 + d, scale := n.scale - 1 }
  else { n with full := true }

/-- One more digit of the power, unless that makes the number too large. -/
def powerDigit? (n : Numeral) (d : Nat) : Option Numeral :=
  if n.vanished then some n
  else if n.power * 10 + d ≤ maxPower then some { n with power := n.power * 10 + d }
  else if n.significand = 0 ∨ n.powerNegative then some { n with vanished := true }
  else none

inductive Step where
  | more (n : Numeral)
  /-- The byte is no part of the number. -/
  | ended
  | broken (cause : Cause)

/-- The number after a byte that belongs to its current part. -/
def take (n : Numeral) (b : UInt8) : Step :=
  match n.part with
  | .minus => .more n
  | .zero | .whole => .more (n.wholeDigit (digit b))
  | .point => .more { n with full := false }
  | .fraction => .more (n.fractionDigit (digit b))
  | .mark => .more n
  | .markSign => .more { n with powerNegative := b == 0x2D }
  | .power =>
    match n.powerDigit? (digit b) with
    | some n => .more n
    | none => .broken .numberOutOfRange

def feed (n : Numeral) (b : UInt8) : Step :=
  match n.part.next b with
  | .part p => { n with part := p }.take b
  | .ended => .ended
  | .broken => .broken .invalidNumber

/-! ### The value -/

def powerOfTen (e : Nat) : Float :=
  OfScientific.ofScientific 1 false e

/-- The largest power of ten that is a floating point number. -/
def maxTen : Nat := 308

/-- The number divided by a power of ten, in as many steps as it takes. -/
def divideByTens (f : Float) (e : Nat) : Float :=
  if e ≤ maxTen then f / powerOfTen e
  else if f == 0 then f
  else divideByTens (f / powerOfTen maxTen) (e - maxTen)
termination_by e
decreasing_by simp [maxTen] at *; omega

def scaled? (f : Float) : Int → Option Float
  | .ofNat e =>
    if e ≤ maxTen then
      let g := f * powerOfTen e
      if g.isInf then none else some g
    else if f == 0 then some f
    else none
  | .negSucc e => some (divideByTens f (e + 1))

def float? (n : Numeral) : Option Float :=
  let size :=
    if n.vanished then some 0
    else
      let power := if n.powerNegative then n.scale - n.power else n.scale + n.power
      scaled? n.significand.toUInt64.toFloat power
  size.map fun f => if n.negative then -f else f

/-- The integer, for digits alone that are all kept.  A negative zero is none. -/
def integer? (n : Numeral) : Option Int :=
  match n.part with
  | .zero | .whole =>
    if n.full then none
    else if !n.negative then some n.significand
    else if 0 < n.significand ∧ n.significand ≤ maxNegative then some (-n.significand)
    else none
  | _ => none

/-- The value of a number that has ended. -/
def value (n : Numeral) : Except Cause Json :=
  match n.integer? with
  | some i => .ok (.integer i)
  | none =>
    match n.float? with
    | some f => .ok (.float f)
    | none => .error .numberOutOfRange

/-- The value of a number when no byte follows. -/
def finish (n : Numeral) : Except Cause Json :=
  if n.part.mayEnd then n.value else .error .endInValue

end Numeral

end Lineage.Json

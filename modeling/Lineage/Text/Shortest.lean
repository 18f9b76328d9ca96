/-!
# Shortest decimals

The decimal text of a floating point number: the fewest digits that read back as the number, and of those the
nearest.  A positive number is `m * 2 ^ q`; the reals that round to it form an interval, closed when `m` is
even, and the digits are those of the first grid `1, 2, 3, ...` digits wide on which a neighbour of the number
lies in the interval.  All of it is arithmetic on natural numbers.
-/

namespace Lineage.Shortest

/-- Powers of ten with either sign, as a factor of the numerator and one of the denominator. -/
def tenTo (e : Int) : Nat × Nat :=
  (Nat.pow 10 e.toNat, Nat.pow 10 (-e).toNat)

/-- A number and the ends of the interval that rounds to it, over one denominator. -/
structure Rounding where
  value : Nat
  low : Nat
  high : Nat
  denominator : Nat
  closed : Bool

/-- The interval around `m * 2 ^ q`.  It reaches half a unit to each side, and below the least number of a
binade (`edge`) a quarter. -/
def Rounding.of (m : Nat) (q : Int) (edge : Bool) : Rounding :=
  let up := Nat.pow 2 q.toNat
  ⟨4 * m * up, (4 * m - if edge then 1 else 2) * up, (4 * m + 2) * up, 4 * Nat.pow 2 (-q).toNat, m % 2 == 0⟩

/-- Whether `d * 10 ^ g` rounds to the number. -/
def Rounding.admits (r : Rounding) (d : Nat) (g : Int) : Bool :=
  let (n, k) := tenTo g
  let x := d * n * r.denominator
  if r.closed then r.low * k ≤ x && x ≤ r.high * k else r.low * k < x && x < r.high * k

/-- The exponent `e` of a positive number: `10 ^ e ≤ value / denominator < 10 ^ (e + 1)`. -/
def Rounding.exponent (r : Rounding) : Int :=
  let reaches (e : Int) : Bool := let (n, k) := tenTo e; n * r.denominator ≤ r.value * k
  let guess := (((r.value.log2 : Int) - r.denominator.log2) * 30103).fdiv 100000
  if reaches (guess + 1) then guess + 1 else if reaches guess then guess else guess - 1

/-- The admitted neighbour on the grid of `10 ^ g`: of two the nearer, and the even one of two as near. -/
def Rounding.neighbour? (r : Rounding) (g : Int) : Option Nat :=
  let (n, k) := tenTo g
  let unit := n * r.denominator
  let below := r.value * k / unit
  let rest := r.value * k % unit
  match r.admits below g, r.admits (below + 1) g with
  | false, false => none
  | true, false => some below
  | false, true => some (below + 1)
  | true, true =>
    if 2 * rest < unit then some below
    else if unit < 2 * rest then some (below + 1)
    else some (below + below % 2)

/-- The first neighbour on the grids of `10 ^ g`, `10 ^ (g - 1)` and so on, and its grid. -/
def Rounding.firstNeighbour (r : Rounding) : (grids : Nat) → Int → Nat × Int
  | 0, g => (r.value, g)
  | grids + 1, g =>
    match r.neighbour? g with
    | some d => (d, g)
    | none => r.firstNeighbour grids (g - 1)

/-- The digits without the zeros at their end, and the exponent of the first. -/
def digitsOf (d : Nat) (g : Int) : List Char × Int :=
  let all := Nat.toDigits 10 d
  ((all.reverse.dropWhile (· == '0')).reverse, g + all.length - 1)

/-- The shortest digits of `m * 2 ^ q`, of which seventeen are always enough, and the exponent of the first. -/
def digits (m : Nat) (q : Int) (edge : Bool) : List Char × Int :=
  let r := Rounding.of m q edge
  let (d, g) := r.firstNeighbour 17 r.exponent
  digitsOf d g

/-! ### Layout -/

/-- How digits become text: the exponents that are written out in full, and the mark of the others. -/
structure Layout where
  fullFrom : Int
  fullBelow : Int
  mark : Char
  plus : List Char

/-- Digits with the point after the first `whole` of them, filled up with zeros on either side. -/
def pointed (digits : List Char) (whole : Int) : List Char :=
  let before := digits.take whole.toNat ++ List.replicate (whole.toNat - digits.length) '0'
  let after := List.replicate (-whole).toNat '0' ++ digits.drop whole.toNat
  (if before.isEmpty then ['0'] else before) ++ '.' :: if after.isEmpty then ['0'] else after

/-- Digits `d` with the first at exponent `e`, either in full or as `d.ddd` and the exponent. -/
def Layout.write (l : Layout) (digits : List Char) (e : Int) : List Char :=
  if l.fullFrom ≤ e ∧ e < l.fullBelow then pointed digits (e + 1)
  else
    let power := l.mark :: (if 0 ≤ e then l.plus else ['-']) ++ Nat.toDigits 10 e.natAbs
    match digits with
    | [] => power
    | [d] => d :: power
    | d :: rest => d :: '.' :: rest ++ power

/-- The bit above the fraction. -/
def leadingBit : Nat := 0x10000000000000

def signBit : Nat := 0x8000000000000000

/-- The text of a finite number.  Its bits hold the sign, eleven bits of exponent and the fraction. -/
def Layout.float (l : Layout) (f : Float) : List Char :=
  let bits := f.toBits.toNat
  let fraction := bits % leadingBit
  let scale : Nat := bits / leadingBit % 2048
  let text :=
    if scale = 0 ∧ fraction = 0 then l.write ['0'] 0
    else
      let (ds, e) :=
        if scale = 0 then digits fraction (-1074) false
        else digits (leadingBit + fraction) ((scale : Int) - 1075) (fraction == 0 && 1 < scale)
      l.write ds e
  if signBit ≤ bits then '-' :: text else text

end Lineage.Shortest

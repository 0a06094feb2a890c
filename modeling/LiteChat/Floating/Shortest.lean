import LiteChat.Floating.Double

/-!
# The shortest decimal that reads back

Every number of a binary format is the nearest one to all reals of an interval
around it (`Interval`).  `Format.shortest` finds a decimal of the fewest digits
in that interval: for one digit, two digits and so on it looks at the two
neighbours of the number on the grid of that many digits, and takes the first
grid with a neighbour inside.  Of two neighbours inside it takes the nearer one;
an exact tie is settled by a `Tie` rule.
-/

namespace LiteChat.Floating

/-- The number `digits · 10^exponent`. -/
structure Decimal where
  /-- The digits, read as a natural number. -/
  digits : Nat
  /-- The power of ten of the last digit. -/
  exponent : Int
  deriving DecidableEq, Repr

/-- Which of two equally near neighbours is taken. -/
inductive Tie where
  /-- The one with an even last digit. -/
  | toEven
  /-- The greater one. -/
  | up
  deriving DecidableEq, Repr

/-- The reals that round to `m · 2^q`, in units of `2^(q-2)`. -/
structure Interval where
  /-- The lower end. -/
  low : Nat
  /-- The number itself. -/
  middle : Nat
  /-- The upper end. -/
  high : Nat
  /-- Whether the ends belong to the interval. -/
  closed : Bool
  /-- The exponent of the unit. -/
  unit : Int
  deriving Repr

/-- The interval of a positive finite magnitude.  Just above a power of two the
lower neighbour is half as far away as the upper one. -/
def Format.interval (f : Format) (magnitude : Nat) : Interval :=
  let (m, q) := f.parts magnitude
  let narrow := decide (m = Nat.pow 2 f.fractionBits) && decide (f.leastExponent < q)
  { low := if narrow then 4 * m - 1 else 4 * m - 2
    middle := 4 * m
    high := 4 * m + 2
    closed := decide (m % 2 = 0)
    unit := q - 2 }

/-- The exponent of the leading decimal digit of a positive ratio. -/
def decimalExponent (num den : Nat) : Int :=
  let e : Int := ((Nat.toDigits 10 num).length : Int) - (Nat.toDigits 10 den).length
  if num * Nat.pow 10 (-e).toNat < den * Nat.pow 10 e.toNat then e - 1 else e

namespace Interval

variable (i : Interval)

/-- The weight, as a natural number, of one grid step `10^k` once both it and the
interval's unit are cleared of negative powers. -/
def gridWeight (k : Int) : Nat := Nat.pow 10 k.toNat * Nat.pow 2 (-i.unit).toNat

/-- The weight of one unit of the interval on the same scale. -/
def unitWeight (k : Int) : Nat := Nat.pow 2 i.unit.toNat * Nat.pow 10 (-k).toNat

/-- Whether `c · 10^k` lies in the interval. -/
def contains (c : Nat) (k : Int) : Bool :=
  let x := c * i.gridWeight k
  let low := i.low * i.unitWeight k
  let high := i.high * i.unitWeight k
  if i.closed then decide (low ≤ x) && decide (x ≤ high)
  else decide (low < x) && decide (x < high)

/-- The neighbour of the number on the grid `10^k` that is to be taken, if any is
inside. -/
def neighbour? (tie : Tie) (k : Int) : Option Nat :=
  let value := i.middle * i.unitWeight k
  let below := value / i.gridWeight k
  let rest := value % i.gridWeight k
  match i.contains below k, i.contains (below + 1) k with
  | false, false => none
  | true, false => some below
  | false, true => some (below + 1)
  | true, true =>
    if 2 * rest < i.gridWeight k then some below
    else if i.gridWeight k < 2 * rest then some (below + 1)
    else match tie with
      | .up => some (below + 1)
      | .toEven => if below % 2 = 0 then some below else some (below + 1)

/-- The number itself as a decimal, which needs as many digits as it needs. -/
def exact : Decimal :=
  ⟨i.middle * Nat.pow 2 i.unit.toNat * Nat.pow 5 (-i.unit).toNat, -((-i.unit).toNat : Int)⟩

end Interval

/-- The same number without trailing zeros among its digits; `fuel` bounds how
many are taken away. -/
def Decimal.trim (fuel : Nat) (d : Decimal) : Decimal :=
  match fuel with
  | 0 => d
  | fuel + 1 =>
    if d.digits ≠ 0 ∧ d.digits % 10 = 0 then
      Decimal.trim fuel ⟨d.digits / 10, d.exponent + 1⟩
    else d

/-- The most digits that are ever needed to tell two doubles apart. -/
def mostDigits : Nat := 17

/-- The shortest decimal that reads back as the given finite magnitude. -/
def Format.shortest (f : Format) (tie : Tie) (magnitude : Nat) : Decimal :=
  if magnitude = 0 then ⟨0, 0⟩
  else
    let i := f.interval magnitude
    let (num, den) := scale i.middle 1 i.unit
    let leading := decimalExponent num den
    let hit := (List.range mostDigits).findSome? fun (n : Nat) =>
      let k : Int := leading - n
      (i.neighbour? tie k).map fun c => Decimal.mk c k
    (hit.getD i.exact).trim mostDigits

example : Format.binary64.shortest .toEven (Double.ofRatio false 1 10).magnitude = ⟨1, -1⟩ := by
  decide +kernel
example : Format.binary64.shortest .toEven 1 = ⟨5, -324⟩ := by decide +kernel
example : Format.binary64.shortest .toEven (Double.ofInt 100).magnitude = ⟨1, 2⟩ := by
  decide +kernel
example : Format.binary32.shortest .up 0x3dcccccd = ⟨1, -1⟩ := by decide +kernel

end LiteChat.Floating

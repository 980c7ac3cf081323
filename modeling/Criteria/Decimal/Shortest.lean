/-! # Shortest decimals
Between two neighbouring doubles lie the numbers that round to neither, and around every double lies
the interval of the numbers that round to it. `Binary.shortest?` finds the coarsest decimal grid, that
of the multiples of the greatest power of ten, with a point in the interval, and on this grid the
point nearest to the double; of two points equally near it takes the greater. So the decimal that is
found has the fewest digits of all that read back as the double. The search is exact, in natural
numbers. -/

namespace Criteria

/-- The number `digits · 10 ^ exponent`. -/
structure Decimal where
  /-- The digits, as one natural number. -/
  digits : Nat
  /-- The power of ten that scales them. -/
  exponent : Int
deriving DecidableEq, Repr

/-- The size of a finite double, `mantissa · 2 ^ exponent`. -/
structure Binary where
  /-- The mantissa. -/
  mantissa : Nat
  /-- The power of two that scales it. -/
  exponent : Int
  /-- Whether the gap to the next smaller double is half the gap to the next greater one. -/
  narrowBelow : Bool
deriving DecidableEq, Repr

namespace Binary

/-- The bit of the mantissa that a double with the full number of digits leaves out. -/
def hiddenBit : Nat := 0x10000000000000

/-- The size of the double with the given bits; the sign is left out. -/
def ofBits (bits : UInt64) : Binary :=
  let biased : Nat := (bits >>> 52 &&& 0x7ff).toNat
  let fraction : Nat := (bits &&& 0xfffffffffffff).toNat
  if biased = 0 then ⟨fraction, -1074, false⟩
  else ⟨hiddenBit + fraction, (biased : Int) - 1075, fraction = 0 ∧ 1 < biased⟩

/-- The lower end of the interval around the double, in quarters of a unit of the mantissa. -/
def low (b : Binary) : Nat := 4 * b.mantissa - if b.narrowBelow then 1 else 2

/-- The upper end of the interval, in quarters of a unit of the mantissa. -/
def high (b : Binary) : Nat := 4 * b.mantissa + 2

/-- The two factors that bring quarters of a unit of the mantissa and points of the grid of
`10 ^ k` to a common measure. -/
def factors (b : Binary) (k : Int) : Nat × Nat :=
  let q := b.exponent - 2
  (Nat.pow 2 q.toNat * Nat.pow 10 (-k).toNat, Nat.pow 2 (-q).toNat * Nat.pow 10 k.toNat)

/-- Whether the point `n · 10 ^ k` is in the interval, whose ends belong to it if the mantissa is
even. -/
def contains (b : Binary) (k : Int) (n : Nat) : Bool :=
  let (unit, point) := b.factors k
  if b.mantissa % 2 = 0 then b.low * unit ≤ n * point ∧ n * point ≤ b.high * unit
  else b.low * unit < n * point ∧ n * point < b.high * unit

/-- The point of the grid of `10 ^ k` that stands for the double, if the interval has one. Only the
two neighbours of the double have to be tried. -/
def pointOn? (b : Binary) (k : Int) : Option Nat :=
  let (unit, point) := b.factors k
  let below := 4 * b.mantissa * unit / point
  let above := below + 1
  match 0 < below && b.contains k below, b.contains k above with
  | true, true =>
    if 4 * b.mantissa * unit - below * point < above * point - 4 * b.mantissa * unit then some below
    else some above
  | true, false => some below
  | false, true => some above
  | false, false => none

/-- The grids of the powers of ten that doubles need, the coarsest first. -/
def grids : List Int := (List.range 634).map fun (i : Nat) => (309 : Int) - i

/-- The **shortest decimal** that reads back as the double; zero has none. -/
def shortest? (b : Binary) : Option Decimal :=
  if b.mantissa = 0 then none
  else grids.findSome? fun k => (b.pointOn? k).map fun n => ⟨n, k⟩

end Binary

end Criteria

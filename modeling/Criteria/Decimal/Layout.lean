import Criteria.Decimal.Shortest

/-! # Layouts of decimals
How a double is written once its digits are known. `Decimal.Layout` holds the choices that formats
make differently; `Decimal.Layout.write` follows them. -/

namespace Criteria.Decimal

/-- The choices of a **format** for doubles. -/
structure Layout where
  /-- The least exponent of the leading digit that is written positionally. -/
  positionalFrom : Int
  /-- The first exponent of the leading digit that is no longer written positionally. -/
  positionalBelow : Int
  /-- What stands after a whole number in positional writing. -/
  wholeSuffix : String
  /-- What stands before the exponent. -/
  exponentMark : String
  /-- The text of an infinity, without its sign. -/
  infinity : String
  /-- The text of a NaN. -/
  notANumber : String

namespace Layout

/-- A row of zeros. -/
def zeros (n : Nat) : String := String.ofList (List.replicate n '0')

/-- A decimal in positional writing. -/
def positional (l : Layout) (d : Decimal) : String :=
  let digits := (Nat.toDigits 10 d.digits)
  let whole := (digits.length + d.exponent).toNat
  if 0 ≤ d.exponent then String.ofList digits ++ zeros d.exponent.toNat ++ l.wholeSuffix
  else if 0 < whole then
    String.ofList (digits.take whole) ++ "." ++ String.ofList (digits.drop whole)
  else "0." ++ zeros (-(digits.length + d.exponent)).toNat ++ String.ofList digits

/-- A decimal with one digit before the point and an exponent. -/
def scientific (l : Layout) (d : Decimal) : String :=
  let digits := Nat.toDigits 10 d.digits
  let fraction := if digits.length ≤ 1 then "" else "." ++ String.ofList (digits.drop 1)
  String.ofList (digits.take 1) ++ fraction ++ l.exponentMark ++
    toString (digits.length - 1 + d.exponent)

/-- A decimal in the writing that its size asks for. -/
def decimal (l : Layout) (d : Decimal) : String :=
  let leading : Int := (Nat.toDigits 10 d.digits).length - 1 + d.exponent
  if l.positionalFrom ≤ leading ∧ leading < l.positionalBelow then l.positional d
  else l.scientific d

/-- The text of a double. -/
def write (l : Layout) (x : Float) : String :=
  let sign := if x.toBits >>> 63 = 1 then "-" else ""
  if x.isNaN then l.notANumber
  else if x.isInf then sign ++ l.infinity
  else match (Binary.ofBits x.toBits).shortest? with
    | some d => sign ++ l.decimal d
    | none => sign ++ "0" ++ l.wholeSuffix

end Layout

end Criteria.Decimal

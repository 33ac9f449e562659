/-!
# The parts of a double-precision number

A double is read from its 64 bits as a sign, a whole significand and a power of two, so that what
is written about it can be computed in exact integer arithmetic.
-/

namespace LiveTemplate.Decimal

/-- A magnitude `significand * 2 ^ exponent` as a double stores it.  `narrow` marks the smallest
significand of a binade, whose lower neighbour is half as far away as its upper one. -/
structure Magnitude where
  significand : Nat
  exponent : Int
  narrow : Bool

/-- What the bits of a double stand for. -/
inductive Binary where
  | notANumber
  | infinite (negative : Bool)
  | finite (negative : Bool) (magnitude : Magnitude)

/-- Split the 64 bits into sign, exponent and fraction. -/
def Binary.ofFloat (x : Float) : Binary :=
  let bits := x.toBits.toNat
  let negative := bits / Nat.pow 2 63 == 1
  let field : Nat := bits / Nat.pow 2 52 % Nat.pow 2 11
  let fraction : Nat := bits % Nat.pow 2 52
  if field = Nat.pow 2 11 - 1 then
    if fraction = 0 then .infinite negative else .notANumber
  else if field = 0 then
    .finite negative ⟨fraction, -1074, false⟩
  else
    .finite negative ⟨Nat.pow 2 52 + fraction, (field : Int) - 1075, fraction == 0 && field != 1⟩

end LiveTemplate.Decimal

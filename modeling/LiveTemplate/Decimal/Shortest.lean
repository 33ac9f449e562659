import LiveTemplate.Decimal.Binary

/-!
# The shortest decimal that reads back

Among the decimals that round to a given double, the one with the fewest digits is chosen, and of
those the one nearest to the double; an exact tie goes to the larger.  A decimal rounds to the
double when it lies between the midpoints to the two neighbouring doubles; the midpoints count when
the significand is even.
-/

namespace LiveTemplate.Decimal

/-- The number `digits * 10 ^ exponent`. -/
structure Scaled where
  digits : Nat
  exponent : Int

/-- Move factors of ten from the digits to the exponent. -/
def Scaled.normalize (number : Scaled) : Scaled :=
  if _zeros : number.digits ≠ 0 ∧ number.digits % 10 = 0 then
    normalize ⟨number.digits / 10, number.exponent + 1⟩
  else
    number
termination_by number.digits
decreasing_by
  show number.digits / 10 < number.digits
  omega

/-- The smallest number of decimal digits that a natural number is written with. -/
def digitCount (n : Nat) : Nat :=
  (Nat.toDigits 10 n).length

/-- The fraction `numerator / denominator` multiplied by `10 ^ shift`. -/
def shiftFraction (fraction : Nat × Nat) (shift : Int) : Nat × Nat :=
  match shift with
  | .ofNat up => (fraction.1 * Nat.pow 10 up, fraction.2)
  | .negSucc down => (fraction.1, fraction.2 * Nat.pow 10 (down + 1))

/-- The least `shift`, counted from `start`, for which the fraction times `10 ^ shift` reaches one.
`tries` bounds the search. -/
def firstShift (fraction : Nat × Nat) (start : Nat) : Nat → Nat
  | 0 => start
  | tries + 1 =>
    if fraction.2 ≤ fraction.1 * Nat.pow 10 start then start
    else firstShift fraction (start + 1) tries

/-- The place of the leading digit: the fraction lies in `[10 ^ (place - 1), 10 ^ place)`. -/
def leadingPlace (fraction : Nat × Nat) : Int :=
  if fraction.2 ≤ fraction.1 then digitCount (fraction.1 / fraction.2)
  else 1 - (firstShift fraction 1 400 : Int)

/-- The interval of reals that round to a magnitude, in quarters of its last place: the lower end,
the magnitude and the upper end over one denominator, and whether the ends belong to it. -/
structure Interval where
  low : Nat
  middle : Nat
  high : Nat
  denominator : Nat
  closed : Bool

/-- The interval around a magnitude. -/
def Magnitude.interval (m : Magnitude) : Interval :=
  let scale : Int := m.exponent - 2
  let factor := Nat.pow 2 scale.toNat
  { low := (4 * m.significand - if m.narrow then 1 else 2) * factor
    middle := 4 * m.significand * factor
    high := (4 * m.significand + 2) * factor
    denominator := Nat.pow 2 (-scale).toNat
    closed := m.significand % 2 == 0 }

/-- Whether `digits * 10 ^ exponent` lies in the interval. -/
def Interval.contains (i : Interval) (number : Scaled) : Bool :=
  let value := shiftFraction (number.digits * i.denominator, 1) number.exponent
  let above := i.low * value.2
  let below := i.high * value.2
  if i.closed then above ≤ value.1 && value.1 ≤ below
  else above < value.1 && value.1 < below

/-- The decimal in the interval, on the grid of multiples of `10 ^ exponent`, that is nearest to its
middle. -/
def Interval.nearest? (i : Interval) (exponent : Int) : Option Scaled :=
  let fraction := shiftFraction (i.middle, i.denominator) (-exponent)
  let below : Scaled := ⟨fraction.1 / fraction.2, exponent⟩
  let above : Scaled := ⟨fraction.1 / fraction.2 + 1, exponent⟩
  let remainder := fraction.1 % fraction.2
  match i.contains below, i.contains above with
  | true, true => some (if 2 * remainder < fraction.2 then below else above)
  | true, false => some below
  | false, true => some above
  | false, false => none

/-- Try ever finer grids, from `count` digits on, until one has a point in the interval.
Seventeen digits always suffice. -/
def Interval.shortest (i : Interval) (place : Int) (count : Nat) : Nat → Scaled
  | 0 => ⟨0, 0⟩
  | tries + 1 =>
    match i.nearest? (place - count) with
    | some number => number.normalize
    | none => i.shortest place (count + 1) tries

/-- The shortest decimal that reads back as the magnitude. -/
def Magnitude.shortest (m : Magnitude) : Scaled :=
  if m.significand = 0 then ⟨0, 0⟩
  else
    let i := m.interval
    i.shortest (leadingPlace (i.middle, i.denominator)) 1 17

end LiveTemplate.Decimal

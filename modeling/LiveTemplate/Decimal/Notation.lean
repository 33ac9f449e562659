import LiveTemplate.Decimal.Shortest

/-!
# Written forms of numbers

Two forms are written from the shortest digits: the positional form, which never uses an exponent,
and the source form, which marks every number as fractional and uses an exponent for very large and
very small magnitudes.
-/

namespace LiveTemplate.Decimal

/-- Digits with a decimal point before the last `places` of them. -/
def withPoint (digits : String) (places : Nat) : String :=
  let padded := String.ofList (List.replicate (places + 1 - digits.length) '0') ++ digits
  let whole := padded.length - places
  (padded.take whole).toString ++ "." ++ (padded.drop whole).toString

/-- Positional notation without an exponent; a whole number has no point. -/
def Scaled.positional (number : Scaled) : String :=
  let digits := toString number.digits
  match number.exponent with
  | .ofNat zeros =>
    if number.digits = 0 then digits else digits ++ String.ofList (List.replicate zeros '0')
  | .negSucc places => withPoint digits (places + 1)

/-- A minus sign before a negative number's text. -/
def signed (negative : Bool) (text : String) : String :=
  if negative then "-" ++ text else text

/-- The positional form of a double.  Negative zero keeps its sign. -/
def positional (x : Float) : String :=
  match Binary.ofFloat x with
  | .notANumber => "NaN"
  | .infinite negative => signed negative "inf"
  | .finite negative magnitude => signed negative magnitude.shortest.positional

/-- The text of a double in running text: positional, and zero without a sign. -/
def plain (x : Float) : String :=
  if x == 0 then "0" else positional x

/-- Scientific notation: one digit, a point and the others if there are any, and the exponent. -/
def Scaled.scientific (number : Scaled) : String :=
  let digits := toString number.digits
  let exponent := number.exponent + (digits.length - 1 : Nat)
  let fraction := (digits.drop 1).toString
  (digits.take 1).toString ++ (if fraction.isEmpty then "" else "." ++ fraction)
    ++ "e" ++ toString exponent

/-- The source form of a double: positional with at least one decimal place from `1e-4` up to, but
not including, `1e16`, and for zero; scientific elsewhere. -/
def source (x : Float) : String :=
  match Binary.ofFloat x with
  | .notANumber => "NaN"
  | .infinite negative => signed negative "inf"
  | .finite negative magnitude =>
    let number := magnitude.shortest
    let place := number.exponent + digitCount number.digits
    if number.digits ≠ 0 ∧ (place < -3 ∨ 16 < place) then signed negative number.scientific
    else if 0 ≤ number.exponent then signed negative (number.positional ++ ".0")
    else signed negative number.positional

end LiveTemplate.Decimal

/-!
# Fixed decimal places

Binary fractions written with a fixed number of decimal places. The exact value is rounded to the
nearest such decimal, and to the one with an even last digit if it lies halfway between two.
-/

namespace Interleaving.Text

/-- The quotient of two numbers, rounded to the nearest whole number, halves to the even one. -/
def roundQuotient (num den : Nat) : Nat :=
  let q := num / den
  let r := num % den
  if den < 2 * r || (2 * r = den && q % 2 = 1) then q + 1 else q

/-- The value of the leading bit of a mantissa, which is not written: `2 ^ 52`. -/
def hiddenBit : Nat := 4503599627370496

/-- A number that is not negative as a quotient of whole numbers. -/
def toQuotient (x : Float) : Nat × Nat :=
  let bits := x.toBits.toNat
  let exponent := bits / hiddenBit % 2048
  let fraction := bits % hiddenBit
  let (mantissa, exponent) :=
    if exponent = 0 then (fraction, 1) else (fraction + hiddenBit, exponent)
  if exponent < 1075 then (mantissa, Nat.pow 2 (1075 - exponent))
  else (mantissa * Nat.pow 2 (exponent - 1075), 1)

/-- A number that is not negative, with two decimal places. -/
def hundredths (x : Float) : String :=
  let (num, den) := toQuotient x
  let n := roundQuotient (100 * num) den
  s!"{n / 100}.{n / 10 % 10}{n % 10}"

end Interleaving.Text

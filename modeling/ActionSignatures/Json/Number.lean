/-
**Decimal numbers in double precision.**

A number with a point or an exponent, or one of too many digits, is taken up in double precision: the
leading digits that fit 64 bits are rounded, and the result is multiplied by a rounded power of ten.
Digits behind the leading ones only shift the exponent.  A number whose product is no finite
floating-point number cannot be taken up.  Both roundings go to the nearest number of 53 significant
bits, and a tie goes to the even one.

Main definitions:

* `ActionSignatures.Json.roundedQuotient` — the nearest whole number to a quotient;
* `ActionSignatures.Json.toDouble` — a whole number rounded to double precision;
* `ActionSignatures.Json.Scaled` — **a decimal number** by its leading digits and an exponent;
* `ActionSignatures.Json.Scaled.isFinite` — it can be taken up.

Main results:

* `ActionSignatures.Json.two_mul_roundedQuotient` — rounding moves by half a unit at most;
* `ActionSignatures.Json.toDouble_of_lt` — a whole number of 53 bits is not rounded;
* `ActionSignatures.Json.takeDigits_lt` — leading digits fit 64 bits.
-/

set_option relaxedAutoImplicit false
set_option autoImplicit false

namespace ActionSignatures.Json

/-! ### Rounding -/

/-- The nearest whole number to `n / d`, of two equally near ones the even one. -/
def roundedQuotient (n d : Nat) : Nat :=
  if d < 2 * (n % d) ∨ (2 * (n % d) = d ∧ n / d % 2 = 1) then n / d + 1 else n / d

/-- Rounding moves a quotient by half a unit at most. -/
theorem two_mul_roundedQuotient {d : Nat} (hd : 0 < d) (n : Nat) :
    2 * n ≤ 2 * (roundedQuotient n d * d) + d ∧ 2 * (roundedQuotient n d * d) ≤ 2 * n + d := by
  have parts : n / d * d + n % d = n := Nat.div_add_mod' n d
  have rest : n % d < d := Nat.mod_lt n hd
  rw [roundedQuotient]
  split
  · rw [Nat.add_mul, Nat.one_mul]
    omega
  · omega

/-- A whole number rounded to double precision, that is, to 53 significant bits. -/
def toDouble (n : Nat) : Nat :=
  roundedQuotient n (1 <<< (n.log2 - 52)) <<< (n.log2 - 52)

/-- A whole number of 53 bits is not rounded. -/
theorem toDouble_of_lt {n : Nat} (h : n < 1 <<< 53) : toDouble n = n := by
  have bits : n.log2 - 52 = 0 := by
    by_cases hn : n = 0
    · simp [hn]
    · have := (Nat.log2_lt hn).2 (Nat.one_shiftLeft 53 ▸ h)
      omega
  simp [toDouble, bits, roundedQuotient, Nat.mod_one]

example : toDouble (1 <<< 53 + 1) = 1 <<< 53 ∧ toDouble (1 <<< 53 + 3) = 1 <<< 53 + 4 := by
  decide +kernel

/-- The least number that rounds to no finite floating-point number of double precision. -/
def doubleLimit : Nat := 1 <<< 1024 - 1 <<< 970

/-! ### Digits -/

/-- The value of a decimal digit. -/
def digit (c : Char) : Nat := c.toNat - 0x30

/-- The number that decimal digits write behind a given one, as long as it fits 64 bits, and how many
digits are left out. -/
def takeDigits (n : Nat) : List Char → Nat × Nat
  | [] => (n, 0)
  | c :: cs =>
      if 10 * n + digit c < UInt64.size then takeDigits (10 * n + digit c) cs
      else (n, cs.length + 1)

/-- Leading digits fit 64 bits. -/
theorem takeDigits_lt {n : Nat} (h : n < UInt64.size) (cs : List Char) :
    (takeDigits n cs).1 < UInt64.size := by
  induction cs generalizing n with
  | nil => exact h
  | cons c cs ih =>
      rw [takeDigits]
      split
      · next fits => exact ih fits
      · exact h

/-- The number that decimal digits write, or `bound` if that is less. -/
def cappedValue (bound : Nat) (cs : List Char) : Nat :=
  cs.foldl (fun n c => min (10 * n + digit c) bound) 0

/-! ### Decimal numbers -/

/-- **A decimal number**: its leading digits as a whole number, times a power of ten. -/
structure Scaled where
  significand : Nat
  exponent : Int
deriving DecidableEq, Repr

namespace Scaled

/-- The number with given digits in front of the point and behind it.  The digits behind the point
follow the leading ones in front of it; those that do not fit are left out. -/
def ofDigits (whole fraction : List Char) : Scaled :=
  let (n, raised) := takeDigits 0 whole
  let (m, skipped) := takeDigits n fraction
  ⟨m, raised + skipped - fraction.length⟩

/-- The number times a power of ten. -/
def scale (x : Scaled) (e : Int) : Scaled := { x with exponent := x.exponent + e }

/-- The greatest power of ten in double precision. -/
def maxExponent : Nat := 308

/-- **Whether the number can be taken up**: zero and numbers that are scaled down always can; of the
others the product of the two rounded factors decides. -/
def isFinite (x : Scaled) : Bool :=
  x.significand = 0 || x.exponent < 0 ||
    (x.exponent ≤ maxExponent &&
      toDouble x.significand * toDouble (Nat.pow 10 x.exponent.toNat) < doubleLimit)

example : isFinite ⟨17976931348623157, 292⟩ = true ∧ isFinite ⟨17976931348623158, 292⟩ = false ∧
    isFinite ⟨179769313486231581, 291⟩ = true := by decide +kernel

end Scaled

end ActionSignatures.Json

import PatchLint.Text.Basic

/-!
# Numeric literals

The values of integer and real literals, however they are spelled: with digit
separators, in any letter case, with a base in front and a type behind. An
integer has a value if it fits 128 bits. A real is an exact decimal, and
`Decimal.Fraction.nearest` is the binary number that stands for it at run time.
-/

namespace PatchLint.Literal

/-- The literal without digit separators, in lower case. -/
def normalize (literal : Text) : Text :=
  (literal.filter (· != '_')).map Char.toLower

/-- Drop trailing characters that satisfy `isSuffix`. -/
def dropSuffix (isSuffix : Char → Bool) (literal : Text) : Text :=
  (literal.reverse.dropWhile isSuffix).reverse

/-! ## Integers -/

/-- The value of a digit in a base up to 36, in lower case or in upper case. -/
def digitValue? (base : Nat) (c : Char) : Option Nat :=
  let value :=
    if c.isDigit then c.toNat - '0'.toNat
    else if c.isLower then c.toNat - 'a'.toNat + 10
    else if c.isUpper then c.toNat - 'A'.toNat + 10
    else base
  if value < base then some value else none

/-- Read digits from the left, with what the digits so far say. -/
def readDigits? (base : Nat) (soFar : Nat) : Text → Option Nat
  | [] => some soFar
  | c :: rest => do readDigits? base (soFar * base + (← digitValue? base c)) rest

/-- Digits are read one part after the other. -/
theorem readDigits?_append (base soFar : Nat) (front back : Text) :
    readDigits? base soFar (front ++ back) =
      (readDigits? base soFar front).bind fun value => readDigits? base value back := by
  induction front generalizing soFar with
  | nil => rfl
  | cons c rest ih =>
      simp only [List.cons_append, readDigits?, Option.bind_eq_bind, ih, Option.bind_assoc]

/-- The value of a non-empty run of digits. -/
def readNat? (base : Nat) (digits : Text) : Option Nat :=
  if digits.isEmpty then none else readDigits? base 0 digits

/-- The value of digits with an optional sign. -/
def readInt? (base : Nat) : Text → Option Int
  | '-' :: digits => (readNat? base digits).map fun value => -(value : Int)
  | '+' :: digits => (readNat? base digits).map fun value => (value : Int)
  | digits => (readNat? base digits).map fun value => (value : Int)

/-- The value of digits with an optional sign, if it fits 128 bits. -/
def readSigned? (base : Nat) (text : Text) : Option Int := do
  let value ← readInt? base text
  if -Int.pow 2 127 ≤ value ∧ value < Int.pow 2 127 then some value else none

/-- The value of an integer literal: decimal, hexadecimal or binary digits and
an optional type. -/
def readInteger? (literal : Text) : Option Int :=
  match dropSuffix (fun c => c == 'u' || c == 'l') (normalize literal) with
  | '0' :: 'x' :: digits => readSigned? 16 digits
  | '0' :: 'b' :: digits => readSigned? 2 digits
  | digits => readSigned? 10 digits

/-! ## Reals -/

/-- The number `digits * 10 ^ exponent`. -/
structure Decimal where
  /-- The digits, as a whole number. -/
  digits : Nat
  /-- The power of ten that the digits are multiplied by. -/
  exponent : Int
deriving DecidableEq, Repr

/-- The exponent that follows the digits of a real literal, if there is one. -/
def readExponent? : Text → Option Int
  | [] => some 0
  | 'e' :: '-' :: digits => (readNat? 10 digits).map fun value => -(value : Int)
  | 'e' :: '+' :: digits => (readNat? 10 digits).map fun value => (value : Int)
  | 'e' :: digits => (readNat? 10 digits).map fun value => (value : Int)
  | _ => none

/-- The value of digits around an optional point, at least one of them, and an
optional exponent, in lower case. -/
def readDecimal? (text : Text) : Option Decimal := do
  let whole := text.takeWhile Char.isDigit
  let (fraction, rest) : Text × Text :=
    match text.dropWhile Char.isDigit with
    | '.' :: rest => (rest.takeWhile Char.isDigit, rest.dropWhile Char.isDigit)
    | rest => ([], rest)
  let digits ← readNat? 10 (whole ++ fraction)
  let exponent ← readExponent? rest
  return ⟨digits, exponent - fraction.length⟩

/-- The value of a real literal. -/
inductive RealValue where
  /-- A decimal number and whether it is below zero. -/
  | decimal (negative : Bool) (size : Decimal)
  /-- An infinite number and whether it is below zero. -/
  | infinite (negative : Bool)
  /-- No number. -/
  | undefined
deriving DecidableEq, Repr

/-- Whether there is a minus sign, and what stands behind a sign. -/
def readMinus : Text → Bool × Text
  | '-' :: rest => (true, rest)
  | '+' :: rest => (false, rest)
  | rest => (false, rest)

/-- The value of a real literal: a decimal number or a word for what is none, with an
optional sign and an optional type. A type is dropped first, so that the short word for an
infinite number loses its last letter and stands for nothing. -/
def readReal? (literal : Text) : Option RealValue :=
  let (negative, size) := readMinus
    (dropSuffix (fun c => c == 'f' || c == 'd' || c == 'm') (normalize literal))
  if size = "infinity".toList then some (.infinite negative)
  else if size = "nan".toList then some .undefined
  else (readDecimal? size).map (.decimal negative)

/-- The whole number nearest to a fraction, the even one of two. -/
def roundDiv (numerator denominator : Nat) : Nat :=
  let quotient := numerator / denominator
  let rest := 2 * (numerator % denominator)
  if rest < denominator then quotient
  else if denominator < rest then quotient + 1
  else quotient + quotient % 2

namespace Decimal

/-- A fraction of whole numbers. -/
structure Fraction where
  /-- The part above the line. -/
  numerator : Nat
  /-- The part below the line. -/
  denominator : Nat
deriving DecidableEq, Repr

/-- The number as a fraction. -/
def toFraction (decimal : Decimal) : Fraction :=
  match decimal.exponent with
  | .ofNat power => ⟨decimal.digits * Nat.pow 10 power, 1⟩
  | .negSucc power => ⟨decimal.digits, Nat.pow 10 (power + 1)⟩

/-- Round a fraction below `2 ^ 53` and of at least `2 ^ -53` to 53 significant
binary digits. -/
def Fraction.nearest (fraction : Fraction) : Fraction :=
  let scaled := fraction.numerator * Nat.pow 2 106 / fraction.denominator
  let scale := Nat.pow 2 (158 - Nat.log2 scaled)
  ⟨roundDiv (fraction.numerator * scale) fraction.denominator, scale⟩

/-- The decimal magnitude: a number other than zero is below ten to this power
and not below ten to one less. -/
def magnitude (decimal : Decimal) : Int :=
  (Nat.toDigits 10 decimal.digits).length + decimal.exponent

/-- The number is so great that no finite binary64 number is nearest to it. -/
def overflows (decimal : Decimal) : Bool :=
  if decimal.digits = 0 ∨ decimal.magnitude < 300 then false
  else if 400 < decimal.magnitude then true
  else
    let fraction := decimal.toFraction
    (Nat.pow 2 1024 - Nat.pow 2 970) * fraction.denominator ≤ fraction.numerator

end Decimal

end PatchLint.Literal

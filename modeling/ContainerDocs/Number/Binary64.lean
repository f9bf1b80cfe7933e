/-!
# Binary floating point numbers of 64 bits

The double precision numbers, each operation being exact arithmetic followed by one rounding to the
nearest number, ties to the even mantissa.

## Main definitions

* `Rounding.nearest` — the integer nearest to a quotient, the even one of two equally near.
* `Rounding.scaled` — a quotient multiplied by a power of a base.
* `Rounding.leadingPlace` — the place of the first decimal digit of a quotient.
* `Binary64` — a number `± mantissa * 2 ^ exponent` in canonical form, an infinity or not a number.
* `Binary64.ofRatio` — the number nearest to a quotient.
* `Binary64.ofDecimal` — the number nearest to a decimal.
* `Binary64.add`, `Binary64.mul`, `Binary64.le` — arithmetic and order.
-/

namespace ContainerDocs

/-! ## Rounding quotients -/

namespace Rounding

/-- The integer nearest to `num / den`; of two equally near integers the even one. -/
def nearest (num den : Nat) : Nat :=
  let q := num / den
  let r := num % den
  if 2 * r < den then q
  else if den < 2 * r then q + 1
  else if q % 2 = 0 then q
  else q + 1

/-- The quotient `num / den * base ^ e` as a pair of numerator and denominator. -/
def scaled (base num den : Nat) (e : Int) : Nat × Nat :=
  if 0 ≤ e then (num * Nat.pow base e.toNat, den) else (num, den * Nat.pow base (-e).toNat)

/-- The number of decimal digits of `n`. -/
def digitCount (n : Nat) : Nat := (Nat.toDigits 10 n).length

/-- The greatest `k` with `10 ^ k ≤ num / den`, for positive `num` and `den`. -/
def leadingPlace (num den : Nat) : Int :=
  let k : Int := digitCount num - digitCount den
  let (n, d) := scaled 10 num den (-k)
  if d ≤ n then k else k - 1

end Rounding

/-! ## Numbers -/

namespace Binary64

/-- A mantissa of at most 53 bits, which has exactly 53 unless the exponent is the least one. -/
def IsCanonical (mantissa : Nat) (exponent : Int) : Prop :=
  mantissa < Nat.pow 2 53 ∧ -1074 ≤ exponent ∧ exponent ≤ 971 ∧
    (Nat.pow 2 52 ≤ mantissa ∨ exponent = -1074)

instance (mantissa : Nat) (exponent : Int) : Decidable (IsCanonical mantissa exponent) := by
  unfold IsCanonical
  infer_instance

end Binary64

/-- A binary floating point number of 64 bits. -/
inductive Binary64 where
  /-- The number `mantissa * 2 ^ exponent`, with a sign. -/
  | finite (negative : Bool) (mantissa : Nat) (exponent : Int)
      (canonical : Binary64.IsCanonical mantissa exponent)
  | infinity (negative : Bool)
  | nan
deriving DecidableEq

namespace Binary64

def zero (negative : Bool) : Binary64 := .finite negative 0 (-1074) (by decide)

instance : Inhabited Binary64 := ⟨zero false⟩

/-- The number with a given mantissa and exponent; one too large for the format is infinite. -/
def ofParts (negative : Bool) (mantissa : Nat) (exponent : Int) : Binary64 :=
  if h : IsCanonical mantissa exponent then .finite negative mantissa exponent h
  else .infinity negative

/-- The exponent at which `num / den` has a mantissa of 53 bits, or the least exponent. -/
def exponentFor (num den : Nat) : Int :=
  let e : Int := num.log2 - den.log2 - 52
  let (n, d) := Rounding.scaled 2 num den (-e)
  max (-1074) (if d * Nat.pow 2 52 ≤ n then e else e - 1)

/-- The number nearest to `num / den`, with a sign. -/
def ofRatio (negative : Bool) (num den : Nat) : Binary64 :=
  if num = 0 then zero negative
  else
    let e := exponentFor num den
    let (n, d) := Rounding.scaled 2 num den (-e)
    let m := Rounding.nearest n d
    if m = Nat.pow 2 53 then ofParts negative (Nat.pow 2 52) (e + 1) else ofParts negative m e

def ofInt (n : Int) : Binary64 := ofRatio (n < 0) n.natAbs 1

/-- The number nearest to `digits * 10 ^ exponent`, with a sign. Decimals beyond the range of the
format are not expanded. -/
def ofDecimal (negative : Bool) (digits : Nat) (exponent : Int) : Binary64 :=
  if digits = 0 then zero negative
  else
    let magnitude : Int := Rounding.digitCount digits + exponent
    if 400 < magnitude then .infinity negative
    else if magnitude < -400 then zero negative
    else
      let (n, d) := Rounding.scaled 10 digits 1 exponent
      ofRatio negative n d

/-! ## Views -/

def isNegative : Binary64 → Bool
  | .finite negative _ _ _ => negative
  | .infinity negative => negative
  | .nan => false

/-- The absolute value as a quotient, when the number is finite. -/
def ratio? : Binary64 → Option (Nat × Nat)
  | .finite _ m e _ => some (Rounding.scaled 2 m 1 e)
  | _ => none

def isFinite (x : Binary64) : Bool := x.ratio?.isSome

def isZero : Binary64 → Bool
  | .finite _ m _ _ => m = 0
  | _ => false

def toInt? (x : Binary64) : Option Int :=
  match x.ratio? with
  | some (n, d) =>
    if n % d = 0 then some (if x.isNegative then -(n / d : Nat) else (n / d : Nat)) else none
  | none => none

/-- The exact value of a finite number. -/
def toRat? (x : Binary64) : Option Rat :=
  x.ratio?.map fun (n, d) =>
    let q : Rat := (n : Rat) / (d : Rat)
    if x.isNegative then -q else q

def ofRat (q : Rat) : Binary64 := ofRatio (q.num < 0) q.num.natAbs q.den

/-! ## Order and arithmetic -/

/-- Whether `x` is at most `y`; a comparison with what is not a number fails. -/
def le (x y : Binary64) : Bool :=
  match x, y with
  | .nan, _ => false
  | _, .nan => false
  | .infinity true, _ => true
  | _, .infinity false => true
  | .infinity false, _ => false
  | _, .infinity true => false
  | x, y => decide (x.toRat?.getD 0 ≤ y.toRat?.getD 0)

/-- Whether `x` is below `y`; a comparison with what is not a number fails. -/
def lt (x y : Binary64) : Bool := le x y && !le y x

/-- Whether `x` and `y` are equal as numbers: zeros are, and what is not a number equals nothing. -/
def eq (x y : Binary64) : Bool := le x y && le y x

/-- The sum, rounded once. -/
def add (x y : Binary64) : Binary64 :=
  match x, y with
  | .nan, _ => .nan
  | _, .nan => .nan
  | .infinity a, .infinity b => if a = b then .infinity a else .nan
  | .infinity a, _ => .infinity a
  | _, .infinity b => .infinity b
  | x, y =>
    let q := x.toRat?.getD 0 + y.toRat?.getD 0
    if q = 0 then zero (x.isNegative && y.isNegative) else ofRat q

/-- The product, rounded once. -/
def mul (x y : Binary64) : Binary64 :=
  let negative := x.isNegative != y.isNegative
  match x, y with
  | .nan, _ => .nan
  | _, .nan => .nan
  | .infinity _, y => if y.isZero then .nan else .infinity negative
  | x, .infinity _ => if x.isZero then .nan else .infinity negative
  | x, y =>
    match x.ratio?, y.ratio? with
    | some (a, b), some (c, d) => ofRatio negative (a * c) (b * d)
    | _, _ => .nan

/-- The quotient by a positive integer, rounded once. -/
def divNat (x : Binary64) (n : Nat) : Binary64 :=
  match x.ratio? with
  | some (a, b) => ofRatio x.isNegative a (b * n)
  | none => x

def neg : Binary64 → Binary64
  | .finite negative m e h => .finite (!negative) m e h
  | .infinity negative => .infinity (!negative)
  | .nan => .nan

end Binary64
end ContainerDocs

import ContainerDocs.Number.Binary64

/-!
# Shortest decimals

The decimal with the fewest digits that reads back as a given number. Among the decimals with that
many digits it is the one nearest to the number, and of two equally near the even one.

## Main definitions

* `Decimal` — digits and a power of ten.
* `Shortest.candidate?` — the nearest decimal with a given number of digits that reads back.
* `Shortest.decimal` — the shortest decimal.
-/

namespace ContainerDocs

/-- The decimal `digits * 10 ^ exponent`. -/
structure Decimal where
  digits : Nat
  exponent : Int
deriving DecidableEq, Repr

namespace Shortest

/-- Whether a decimal reads as the number `x`, apart from the sign. -/
def readsAs (x : Binary64) (d : Decimal) : Bool :=
  Binary64.ofDecimal x.isNegative d.digits d.exponent = x

/-- Of the two neighbours of `num / den` with `count` digits, those that read as `x`, the nearer
one first. -/
def candidate? (x : Binary64) (num den count : Nat) : Option Decimal :=
  let k := Rounding.leadingPlace num den - (count - 1 : Nat)
  let (n, d) := Rounding.scaled 10 num den (-k)
  let low : Decimal := ⟨n / d, k⟩
  let high : Decimal := ⟨n / d + 1, k⟩
  let lowFirst := Rounding.nearest n d = n / d
  let first := if lowFirst then low else high
  let second := if lowFirst then high else low
  if readsAs x first then some first
  else if readsAs x second then some second
  else none

/-- The decimal that equals `mantissa * 2 ^ exponent`. -/
def exact (mantissa : Nat) (exponent : Int) : Decimal :=
  if 0 ≤ exponent then ⟨mantissa * Nat.pow 2 exponent.toNat, 0⟩
  else ⟨mantissa * Nat.pow 5 (-exponent).toNat, exponent⟩

/-- The decimal without the zeros at the end of its digits, at most `bound` of them. -/
def trimZeros : Nat → Decimal → Decimal
  | 0, d => d
  | bound + 1, d =>
    if d.digits ≠ 0 ∧ d.digits % 10 = 0 then trimZeros bound ⟨d.digits / 10, d.exponent + 1⟩
    else d

/-- The decimal with the fewest digits that reads as the number, apart from the sign. Seventeen
digits suffice for every number; the exact decimal stands behind them. Infinities and what is not a
number have none and give zero. -/
def decimal (x : Binary64) : Decimal :=
  match x with
  | .finite _ m e _ =>
    if m = 0 then ⟨0, 0⟩
    else
      let (num, den) := Rounding.scaled 2 m 1 e
      let found := (List.range' 1 17).findSome? (candidate? x num den)
      let d := found.getD (exact m e)
      trimZeros (Rounding.digitCount d.digits) d
  | _ => ⟨0, 0⟩

end Shortest
end ContainerDocs

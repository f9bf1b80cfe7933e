import ContainerDocs.Number.Shortest

/-!
# Written numbers

The texts of floating point numbers: the shortest one that reads back, one with a fixed number of
places and one with six significant digits.

## Main definitions

* `Format.shortest` — the fewest digits that read back, positional for moderate exponents.
* `Format.fixed` — a fixed number of places, a half going to the even neighbour.
* `Format.general` — at most six significant digits, without trailing zeros.
-/

namespace ContainerDocs
namespace Format

structure Words where
  infinity : String
  nan : String

def Words.short : Words := ⟨"inf", "nan"⟩

def Words.json : Words := ⟨"Infinity", "NaN"⟩

def digits (n : Nat) : List Char := Nat.toDigits 10 n

def padded (width n : Nat) : List Char :=
  List.replicate (width - (digits n).length) '0' ++ digits n

def integer (n : Int) : List Char :=
  if n < 0 then '-' :: digits n.natAbs else digits n.natAbs

def exponentPart (e : Int) : List Char :=
  'e' :: (if e < 0 then '-' else '+') :: padded 2 e.natAbs

/-- The digits `ds` with the first one before the point, and an exponent. -/
def scientific (ds : List Char) (e : Int) : List Char :=
  match ds with
  | [] => exponentPart e
  | [d] => d :: exponentPart e
  | d :: rest => d :: '.' :: rest ++ exponentPart e

/-- The digits `ds` with `point` of them before the point; at least one place follows it. -/
def positional (ds : List Char) (point : Int) : List Char :=
  if point ≤ 0 then '0' :: '.' :: List.replicate (-point).toNat '0' ++ ds
  else
    let whole := ds.take point.toNat
    let places := ds.drop point.toNat
    whole ++ List.replicate (point.toNat - whole.length) '0' ++
      '.' :: (if places.isEmpty then ['0'] else places)

def sign (x : Binary64) : List Char := if x.isNegative then ['-'] else []

/-- The shortest text that reads back. It is positional when the first digit stands at a place from
`10 ^ -4` to `10 ^ 15`. -/
def shortestChars (names : Words) (x : Binary64) : List Char :=
  match x with
  | .nan => names.nan.toList
  | .infinity _ => sign x ++ names.infinity.toList
  | .finite .. =>
    let d := Shortest.decimal x
    let ds := digits d.digits
    let point : Int := ds.length + d.exponent
    sign x ++
      if d.digits = 0 then "0.0".toList
      else if -4 < point ∧ point ≤ 16 then positional ds point
      else scientific ds (point - 1)

/-- The shortest text that reads back, as a string. -/
def shortest (x : Binary64) : String := String.ofList (shortestChars .short x)

/-- The quotient `num / den` with `places` digits after the point, a half going to the even
neighbour. -/
def fixedRatio (places num den : Nat) : List Char :=
  let unit := Nat.pow 10 places
  let n := Rounding.nearest (num * unit) den
  let whole := digits (n / unit)
  if places = 0 then whole else whole ++ '.' :: padded places (n % unit)

/-- The number with `places` digits after the point. -/
def fixedChars (places : Nat) (x : Binary64) : List Char :=
  match x with
  | .nan => "nan".toList
  | x =>
    match x.ratio? with
    | some (num, den) => sign x ++ fixedRatio places num den
    | none => sign x ++ "inf".toList

/-- The number with `places` digits after the point, as a string. -/
def fixed (places : Nat) (x : Binary64) : String := String.ofList (fixedChars places x)

/-- The quotient `num / den` rounded to six significant digits, as the digits and the place of the
first one. -/
def sixDigits (num den : Nat) : Nat × Int :=
  let k := Rounding.leadingPlace num den
  let (n, d) := Rounding.scaled 10 num den (5 - k)
  let m := Rounding.nearest n d
  if m = 1000000 then (100000, k + 1) else (m, k)

def withoutTrailingZeros (ds : List Char) : List Char :=
  (ds.reverse.dropWhile (· == '0')).reverse

/-- At most six significant digits without trailing zeros, positional when the first digit stands
at a place from `10 ^ -4` to `10 ^ 5`. -/
def generalChars (x : Binary64) : List Char :=
  match x with
  | .nan => "nan".toList
  | x =>
    match x.ratio? with
    | none => sign x ++ "inf".toList
    | some (num, den) =>
      sign x ++
        if num = 0 then ['0']
        else
          let (m, k) := sixDigits num den
          let ds := withoutTrailingZeros (digits m)
          if k < -4 ∨ 6 ≤ k then scientific ds k
          else if k < 0 then '0' :: '.' :: List.replicate (-k - 1).toNat '0' ++ ds
          else
            let whole := ds.take (k.toNat + 1)
            let places := ds.drop (k.toNat + 1)
            whole ++ List.replicate (k.toNat + 1 - whole.length) '0' ++
              (if places.isEmpty then [] else '.' :: places)

def general (x : Binary64) : String := String.ofList (generalChars x)

end Format
end ContainerDocs

import ContainerDocs.Image.Reference
import Mathlib.Computability.Language
import Mathlib.Data.List.TakeWhile

/-!
# The patterns of image references

What components, tags and digests look like, as languages made of characters by union,
concatenation and repetition. The readers of the parts accept exactly these languages: what is left
to read at a place of a reader is a language of its own, and each character leads from one to
another.

## Main definitions

* `ImageReference.componentPattern`, `ImageReference.tagPattern`, `ImageReference.digestPattern` —
  the languages of the parts.
* `ImageReference.Place.rest` — what completes a component from a place.

## Main statements

* `ImageReference.isComponent_iff`, `ImageReference.isTag_iff`, `ImageReference.isDigest_iff` — the
  readers accept the languages.
-/

namespace ContainerDocs
namespace ImageReference

open scoped Computability

/-! ## Texts of characters of a class -/

def one (p : Char → Bool) : Language Char := {u | ∃ c, p c = true ∧ u = [c]}

def only (d : Char) : Language Char := one (· == d)

section One

variable {p : Char → Bool} {L : Language Char} {c : Char} {cs : List Char}

@[simp]
theorem nil_notMem_one_mul : [] ∉ one p * L := by
  rintro ⟨-, ⟨c, -, rfl⟩, w, -, h⟩
  exact nomatch h

@[simp]
theorem cons_mem_one_mul : c :: cs ∈ one p * L ↔ p c = true ∧ cs ∈ L := by
  constructor
  · rintro ⟨-, ⟨d, hd, rfl⟩, w, hw, h⟩
    obtain ⟨rfl, rfl⟩ := List.cons.inj h
    exact ⟨hd, hw⟩
  · rintro ⟨hc, hcs⟩
    exact ⟨[c], ⟨c, hc, rfl⟩, cs, hcs, rfl⟩

@[simp]
theorem nil_notMem_only_mul {d : Char} : [] ∉ only d * L := nil_notMem_one_mul

@[simp]
theorem cons_mem_only_mul {d : Char} : c :: cs ∈ only d * L ↔ c = d ∧ cs ∈ L := by
  rw [only, cons_mem_one_mul, beq_iff_eq]

theorem mem_kstar_one : cs ∈ (one p)∗ ↔ ∀ c ∈ cs, p c = true := by
  induction cs with
  | nil => simp [Language.nil_mem_kstar]
  | cons c cs ih =>
    rw [← Language.one_add_self_mul_kstar_eq_kstar, Language.mem_add, cons_mem_one_mul, ih]
    simp

theorem mem_one_pow {n : Nat} : cs ∈ one p ^ n ↔ cs.length = n ∧ ∀ c ∈ cs, p c = true := by
  induction n generalizing cs with
  | zero =>
    rw [pow_zero, Language.mem_one, List.length_eq_zero_iff]
    exact ⟨fun h => ⟨h, by simp [h]⟩, And.left⟩
  | succ n ih =>
    rw [pow_succ']
    cases cs with
    | nil => simp
    | cons c cs =>
      rw [cons_mem_one_mul, ih, List.length_cons, Nat.add_right_cancel_iff, List.forall_mem_cons]
      exact and_left_comm

/-- At most `n` characters of a class. -/
theorem mem_one_add_one_pow {n : Nat} :
    cs ∈ (1 + one p) ^ n ↔ cs.length ≤ n ∧ ∀ c ∈ cs, p c = true := by
  induction n generalizing cs with
  | zero =>
    rw [pow_zero, Language.mem_one, Nat.le_zero, List.length_eq_zero_iff]
    exact ⟨fun h => ⟨h, by simp [h]⟩, And.left⟩
  | succ n ih =>
    rw [pow_succ', add_mul, one_mul, Language.mem_add, ih]
    cases cs with
    | nil => simp
    | cons c cs =>
      rw [cons_mem_one_mul, ih, List.length_cons, List.forall_mem_cons]
      constructor
      · rintro (⟨hn, h⟩ | ⟨hc, hn, h⟩)
        · exact ⟨by omega, h⟩
        · exact ⟨by omega, hc, h⟩
      · rintro ⟨hn, hc, h⟩
        exact .inr ⟨hc, by omega, h⟩

end One

/-! ## Components -/

def runPattern : Language Char := one isComponentChar * (one isComponentChar)∗

/-- What separates runs: a dot, one or two low lines, or hyphens. -/
def separatorPattern : Language Char :=
  (only '.' + only '_') + only '_' * only '_' + only '-' * (only '-')∗

/-- Repository components: runs with separators between them. -/
def componentPattern : Language Char := runPattern * (separatorPattern * runPattern)∗

def Place.rest : Place → Language Char
  | .run => (one isComponentChar)∗ * (separatorPattern * runPattern)∗
  | .low => componentPattern + only '_' * componentPattern
  | .hyphens => (only '-')∗ * componentPattern
  | .start | .dot | .doubleLow => componentPattern

namespace Place

theorem rest_start : rest .start = one isComponentChar * rest .run := mul_assoc ..

theorem rest_run : rest .run = one isComponentChar * rest .run +
    (1 + (only '.' * rest .dot + only '_' * rest .low + only '-' * rest .hyphens)) := by
  have hseparated : (separatorPattern * runPattern)∗ = 1 + separatorPattern * componentPattern := by
    rw [componentPattern, ← mul_assoc, Language.one_add_self_mul_kstar_eq_kstar]
  calc rest .run
      = (1 + one isComponentChar * (one isComponentChar)∗) * (separatorPattern * runPattern)∗ := by
        rw [Language.one_add_self_mul_kstar_eq_kstar]; rfl
    _ = one isComponentChar * rest .run + (1 + separatorPattern * componentPattern) := by
        rw [add_mul, one_mul, mul_assoc, add_comm, ← hseparated]; rfl
    _ = _ := by
        simp only [rest, separatorPattern, add_mul, mul_add, mul_assoc, add_assoc]

theorem rest_low : rest .low = one isComponentChar * rest .run + only '_' * rest .doubleLow := by
  rw [← rest_start]
  rfl

theorem rest_hyphens : rest .hyphens = one isComponentChar * rest .run + only '-' * rest .hyphens :=
  calc rest .hyphens
      = componentPattern + only '-' * rest .hyphens := by
        rw [rest, ← mul_assoc, ← one_add_mul, Language.one_add_self_mul_kstar_eq_kstar]
    _ = _ := by
        rw [← rest_start]
        rfl

theorem nil_mem_rest {p : Place} : [] ∈ p.rest ↔ p = .run := by
  cases p with
  | run => rw [rest_run]; simp [Language.mem_add, -add_eq_sup]
  | low => rw [rest_low]; simp [Language.mem_add, -add_eq_sup]
  | hyphens => rw [rest_hyphens]; simp [Language.mem_add, -add_eq_sup]
  | start | dot | doubleLow => exact iff_of_false (rest_start ▸ nil_notMem_one_mul) nofun

/-- A character leads to the next place, and what completes the component from there is left. -/
theorem cons_mem_rest {p : Place} {c : Char} {cs : List Char} :
    c :: cs ∈ p.rest ↔ ∃ q, p.next c = some q ∧ cs ∈ q.rest := by
  have hseparators : isComponentChar c = true → c ≠ '.' ∧ c ≠ '_' ∧ c ≠ '-' := by
    rintro hc
    refine ⟨?_, ?_, ?_⟩ <;> rintro rfl <;> exact absurd hc (by decide)
  cases p with
  | run =>
    rw [rest_run]
    simp only [Language.mem_add, Language.mem_one, cons_mem_one_mul, cons_mem_only_mul, next]
    split_ifs <;> simp_all
  | low =>
    rw [rest_low]
    simp only [Language.mem_add, cons_mem_one_mul, cons_mem_only_mul, next]
    split_ifs <;> simp_all
  | hyphens =>
    rw [rest_hyphens]
    simp only [Language.mem_add, cons_mem_one_mul, cons_mem_only_mul, next]
    split_ifs <;> simp_all
  | start | dot | doubleLow =>
    change c :: cs ∈ rest .start ↔ _
    rw [rest_start, cons_mem_one_mul]
    by_cases hc : isComponentChar c = true <;> simp [next, hc]

end Place

theorem isComponentFrom_iff {p : Place} {cs : List Char} :
    isComponentFrom p cs = true ↔ cs ∈ p.rest := by
  induction cs generalizing p with
  | nil => simp [isComponentFrom, Place.nil_mem_rest]
  | cons c cs ih =>
    rw [isComponentFrom, Place.cons_mem_rest]
    cases p.next c with
    | none => simp
    | some q => simpa using ih

/-- The reader of components accepts the language of components. -/
theorem isComponent_iff {cs : List Char} : isComponent cs = true ↔ cs ∈ componentPattern :=
  isComponentFrom_iff

/-! ## Tags -/

def isTagChar (c : Char) : Bool := WordChar.isWordChar c || c == '.' || c == '-'

/-- Tags: a word character and at most 127 characters after it. -/
def tagPattern : Language Char := one WordChar.isWordChar * (1 + one isTagChar) ^ 127

/-- The reader of tags accepts the language of tags. -/
theorem isTag_iff {cs : List Char} : isTag cs = true ↔ cs ∈ tagPattern := by
  cases cs with
  | nil => simp [isTag, tagPattern]
  | cons c rest =>
    rw [isTag, tagPattern, cons_mem_one_mul, mem_one_add_one_pow]
    simp [isTagChar, and_assoc]

/-! ## Digests -/

/-- Words of an algorithm: a letter, and letters and digits. -/
def wordPattern : Language Char := one isAsciiLetter * (one isAsciiAlphanumeric)∗

/-- Algorithms: words with joints between them. -/
def algorithmPattern : Language Char := wordPattern * (one isAlgorithmJoint * wordPattern)∗

/-- Digests: an algorithm, a colon and at least 32 hexadecimal digits. -/
def digestPattern : Language Char :=
  algorithmPattern * (only ':' * (one isHexDigit ^ 32 * (one isHexDigit)∗))

def algorithmRest (fresh : Bool) : Language Char :=
  if fresh then algorithmPattern
  else (one isAsciiAlphanumeric)∗ * (one isAlgorithmJoint * wordPattern)∗

theorem algorithmRest_true : algorithmRest true = one isAsciiLetter * algorithmRest false :=
  mul_assoc ..

theorem algorithmRest_false : algorithmRest false =
    one isAsciiAlphanumeric * algorithmRest false +
      (1 + one isAlgorithmJoint * algorithmRest true) := by
  have hjoined : (one isAlgorithmJoint * wordPattern)∗ =
      1 + one isAlgorithmJoint * algorithmPattern := by
    rw [algorithmPattern, ← mul_assoc, Language.one_add_self_mul_kstar_eq_kstar]
  calc algorithmRest false
      = (1 + one isAsciiAlphanumeric * (one isAsciiAlphanumeric)∗) *
          (one isAlgorithmJoint * wordPattern)∗ := by
        rw [Language.one_add_self_mul_kstar_eq_kstar]; rfl
    _ = one isAsciiAlphanumeric * algorithmRest false +
          (1 + one isAlgorithmJoint * algorithmPattern) := by
        rw [add_mul, one_mul, mul_assoc, add_comm, ← hjoined]; rfl
    _ = _ := rfl

theorem isAsciiAlphanumeric_of_isAlgorithmJoint {c : Char} (h : isAlgorithmJoint c = true) :
    isAsciiAlphanumeric c = false := by
  simp only [isAlgorithmJoint, Bool.or_eq_true, beq_iff_eq, or_assoc] at h
  obtain rfl | rfl | rfl | rfl := h <;> decide

theorem isAlgorithm_iff {fresh : Bool} {cs : List Char} :
    isAlgorithm fresh cs = true ↔ cs ∈ algorithmRest fresh := by
  induction cs generalizing fresh with
  | nil =>
    cases fresh with
    | true => rw [algorithmRest_true]; simp [isAlgorithm]
    | false => rw [algorithmRest_false]; simp [isAlgorithm, Language.mem_add, -add_eq_sup]
  | cons c cs ih =>
    cases fresh with
    | true => rw [algorithmRest_true, cons_mem_one_mul, ← ih]; simp [isAlgorithm]
    | false =>
      rw [algorithmRest_false]
      simp only [Language.mem_add, Language.mem_one, cons_mem_one_mul, ← ih, isAlgorithm]
      by_cases hc : isAlgorithmJoint c = true
      · simp [hc, isAsciiAlphanumeric_of_isAlgorithmJoint hc]
      · simp [hc]

theorem notMem_of_isAlgorithm {fresh : Bool} {c : Char} {cs : List Char}
    (hc : isAsciiAlphanumeric c = false) (hj : isAlgorithmJoint c = false)
    (h : isAlgorithm fresh cs = true) : c ∉ cs := by
  have hl : isAsciiLetter c = false := (Bool.or_eq_false_iff.1 hc).1
  induction cs generalizing fresh with
  | nil => simp
  | cons d cs ih =>
    intro hmem
    obtain rfl | hcs := List.mem_cons.1 hmem
    · cases fresh <;> simp [isAlgorithm, hc, hj, hl] at h
    · rw [isAlgorithm] at h
      split_ifs at h
      · exact ih (Bool.and_eq_true_iff.1 h).2 hcs
      · exact ih h hcs
      · exact ih (Bool.and_eq_true_iff.1 h).2 hcs

theorem mem_one_pow_mul_kstar {p : Char → Bool} {n : Nat} {cs : List Char} :
    cs ∈ one p ^ n * (one p)∗ ↔ n ≤ cs.length ∧ ∀ c ∈ cs, p c = true := by
  constructor
  · rintro ⟨u, hu, v, hv, rfl⟩
    obtain ⟨hn, hp⟩ := mem_one_pow.1 hu
    refine ⟨by simp [← hn], fun c hc => ?_⟩
    exact (List.mem_append.1 hc).elim (hp c) (mem_kstar_one.1 hv c)
  · rintro ⟨hn, hp⟩
    refine ⟨cs.take n, mem_one_pow.2 ⟨by simpa using hn, ?_⟩, cs.drop n, mem_kstar_one.2 ?_,
      List.take_append_drop n cs⟩
    · exact fun c hc => hp c (List.mem_of_mem_take hc)
    · exact fun c hc => hp c (List.mem_of_mem_drop hc)

/-- The parts of a digest. -/
theorem isDigest_iff_exists {cs : List Char} : isDigest cs = true ↔
    ∃ algorithm hex, cs = algorithm ++ ':' :: hex ∧ isAlgorithm true algorithm = true ∧
      32 ≤ hex.length ∧ ∀ c ∈ hex, isHexDigit c = true := by
  have happend : ∀ algorithm hex, ':' ∉ algorithm → isDigest (algorithm ++ ':' :: hex) =
      (isAlgorithm true algorithm && 32 ≤ hex.length && hex.all isHexDigit) := by
    intro algorithm hex h
    have hne : ∀ c ∈ algorithm, decide (c ≠ ':') = true := fun c hc => by
      simpa using fun hcolon : c = ':' => h (hcolon ▸ hc)
    rw [isDigest, List.dropWhile_append_of_pos hne, List.takeWhile_append_of_pos hne]
    simp
  constructor
  · intro h
    have hmem : ':' ∈ cs := by
      by_contra hno
      rw [isDigest, List.dropWhile_eq_nil_iff.2 fun c hc => by
        simpa using fun hcolon : c = ':' => hno (hcolon ▸ hc)] at h
      exact nomatch h
    obtain ⟨algorithm, hex, rfl, hcolon⟩ := List.eq_append_cons_of_mem hmem
    rw [happend algorithm hex hcolon] at h
    simp only [Bool.and_eq_true, decide_eq_true_eq, List.all_eq_true] at h
    exact ⟨algorithm, hex, rfl, h.1.1, h.1.2, h.2⟩
  · rintro ⟨algorithm, hex, rfl, halgorithm, hlength, hhex⟩
    rw [happend algorithm hex (notMem_of_isAlgorithm (by decide) (by decide) halgorithm)]
    simpa [halgorithm, hlength] using hhex

/-- The reader of digests accepts the language of digests. -/
theorem isDigest_iff {cs : List Char} : isDigest cs = true ↔ cs ∈ digestPattern := by
  rw [isDigest_iff_exists]
  constructor
  · rintro ⟨algorithm, hex, rfl, halgorithm, hhex⟩
    exact ⟨algorithm, isAlgorithm_iff.1 halgorithm, ':' :: hex,
      cons_mem_only_mul.2 ⟨rfl, mem_one_pow_mul_kstar.2 hhex⟩, rfl⟩
  · rintro ⟨algorithm, halgorithm, v, hv, rfl⟩
    cases v with
    | nil => exact absurd hv nil_notMem_only_mul
    | cons c hex =>
      obtain ⟨rfl, hhex⟩ := cons_mem_only_mul.1 hv
      exact ⟨algorithm, hex, rfl, isAlgorithm_iff.2 halgorithm, mem_one_pow_mul_kstar.1 hhex⟩

end ImageReference
end ContainerDocs

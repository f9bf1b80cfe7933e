import ContainerDocs.Proofs.Image.Order
import Mathlib.Data.List.Lex

/-!
# The definite order of image statistics

An order that ranks elements by a key leaves only the places of elements of one key open, and a
stable sort fixes those by the list it starts from. So a list that is sorted already can be sorted
again with more elements behind it, and the definite order of image statistics can be taken at any
time.

## Main definitions

* `Ordered.RanksBy` — an order that looks at a key of each element and at nothing else.
* `Package.Before`, `Vulnerability.NotAfter` — the definite orders in terms of code points.

## Main statements

* `Ordered.RanksBy.eq_of_filter` — ordered lists with the same elements of each key are equal.
* `Ordered.RanksBy.filter_mergeSort` — sorting is stable.
* `Ordered.distinct_congr` — the distinct elements depend on the set of elements only.
* `ImageStats.finalize_any_time` — the definite order is a normal form that absorbs earlier ones.
-/

namespace ContainerDocs

/-! ## Orders by a key -/

namespace Ordered

variable {α κ : Type} {le : α → α → Bool} {key : α → κ} {xs ys : List α}

/-- The order looks at the key of each element and at nothing else, and it is a total order of the
keys. -/
structure RanksBy (le : α → α → Bool) (key : α → κ) : Prop where
  total : ∀ a b, (le a b || le b a) = true
  trans : ∀ a b c, le a b = true → le b c = true → le a c = true
  key_eq : ∀ a b, le a b = true → le b a = true → key a = key b
  le_of_key_eq : ∀ a b, key a = key b → le a b = true

namespace RanksBy

theorem pairwise_mergeSort (h : RanksBy le key) (xs : List α) :
    (xs.mergeSort le).Pairwise fun a b => le a b = true :=
  List.pairwise_mergeSort h.trans h.total xs

/-- Ordered lists that hold the same elements of each key start with the same key. -/
theorem key_eq_of_filter (h : RanksBy le key) [DecidableEq κ] {a b : α}
    (hxs : (a :: xs).Pairwise fun a b => le a b = true)
    (hys : (b :: ys).Pairwise fun a b => le a b = true)
    (hfilter : ∀ k, (a :: xs).filter (key · = k) = (b :: ys).filter (key · = k)) :
    key a = key b := by
  -- Each head stands in the other list up to its key, so neither head comes before the other.
  have hmem : ∀ c, c ∈ a :: xs ↔ c ∈ b :: ys := fun c => by
    have hc := congrArg (c ∈ ·) (hfilter (key c))
    simpa using hc
  have hself : ∀ c, le c c = true := fun c => h.le_of_key_eq c c rfl
  have hab : le a b = true := by
    have hb := (hmem b).2 List.mem_cons_self
    grind [List.pairwise_cons]
  have hba : le b a = true := by
    have ha := (hmem a).1 List.mem_cons_self
    grind [List.pairwise_cons]
  exact h.key_eq a b hab hba

/-- Ordered lists that hold the same elements of each key in the same order are equal. -/
theorem eq_of_filter (h : RanksBy le key) [DecidableEq κ]
    (hxs : xs.Pairwise fun a b => le a b = true) (hys : ys.Pairwise fun a b => le a b = true)
    (hfilter : ∀ k, xs.filter (key · = k) = ys.filter (key · = k)) : xs = ys := by
  induction xs generalizing ys with
  | nil =>
    cases ys with
    | nil => rfl
    | cons b ys => simpa using hfilter (key b)
  | cons a xs ih =>
    cases ys with
    | nil => simpa using hfilter (key a)
    | cons b ys =>
      have hkey := h.key_eq_of_filter hxs hys hfilter
      have hhead : a = b := by
        have hclass := hfilter (key a)
        simp [hkey] at hclass
        exact hclass.1
      subst hhead
      rw [ih hxs.of_cons hys.of_cons fun k => ?_]
      have hclass := hfilter k
      by_cases hk : key a = k
      · simpa [hk] using hclass
      · simpa [hk] using hclass

/-- Sorting leaves the elements of each key in their order. -/
theorem filter_mergeSort (h : RanksBy le key) [DecidableEq κ] (xs : List α) (k : κ) :
    (xs.mergeSort le).filter (key · = k) = xs.filter (key · = k) := by
  have hclass : (xs.filter (key · = k)).Pairwise fun a b => le a b = true := by
    refine List.pairwise_of_forall_mem_list fun a ha b hb => h.le_of_key_eq a b ?_
    grind
  have hsub : List.Sublist (xs.filter (key · = k)) ((xs.mergeSort le).filter (key · = k)) := by
    have hsub := (List.sublist_mergeSort h.trans h.total hclass List.filter_sublist).filter
      (key · = k)
    simpa [List.filter_filter] using hsub
  exact (hsub.eq_of_length ((List.mergeSort_perm xs le).filter _).length_eq.symm).symm

/-- What is sorted already can be sorted again with more elements behind it. -/
theorem mergeSort_append (h : RanksBy le key) [DecidableEq κ] (xs ys : List α) :
    (xs.mergeSort le ++ ys).mergeSort le = (xs ++ ys).mergeSort le := by
  refine h.eq_of_filter (h.pairwise_mergeSort _) (h.pairwise_mergeSort _) fun k => ?_
  simp only [h.filter_mergeSort, List.filter_append]

theorem mergeSort_mergeSort (h : RanksBy le key) (xs : List α) :
    (xs.mergeSort le).mergeSort le = xs.mergeSort le :=
  List.mergeSort_of_pairwise (h.pairwise_mergeSort xs)

/-- The keys of a sorted list depend on the elements only, not on their order. -/
theorem map_mergeSort (h : RanksBy le key) (hperm : xs.Perm ys) :
    (xs.mergeSort le).map key = (ys.mergeSort le).map key := by
  let below : κ → κ → Prop := fun k l => ∀ a b, key a = k → key b = l → le a b = true
  have hbelow : ∀ zs : List α, ((zs.mergeSort le).map key).Pairwise below := by
    intro zs
    refine List.pairwise_map.2 ((h.pairwise_mergeSort zs).imp fun hab c d hc hd => ?_)
    exact h.trans _ _ _ (h.trans _ _ _ (h.le_of_key_eq _ _ hc) hab) (h.le_of_key_eq _ _ hd.symm)
  have hkeys : ((xs.mergeSort le).map key).Perm ((ys.mergeSort le).map key) :=
    (((List.mergeSort_perm xs le).trans hperm).trans (List.mergeSort_perm ys le).symm).map key
  refine List.Perm.eq_of_pairwise (fun k l hk hl hkl hlk => ?_) (hbelow xs) (hbelow ys) hkeys
  obtain ⟨a, -, rfl⟩ := List.mem_map.1 hk
  obtain ⟨b, -, rfl⟩ := List.mem_map.1 hl
  exact h.key_eq a b (hkl a b rfl rfl) (hlk b a rfl rfl)

end RanksBy

/-! ## Distinct elements -/

/-- The distinct elements of a list depend on the set of its elements only. -/
theorem distinct_congr [DecidableEq α] (h : RanksBy le id) (hmem : ∀ a, a ∈ xs ↔ a ∈ ys) :
    distinct le xs = distinct le ys := by
  have hstrict := pairwise_distinct h.trans h.total h.key_eq
  have hnodup : ∀ zs, (distinct le zs).Nodup := fun zs => (hstrict zs).imp And.right
  have hperm : (distinct le xs).Perm (distinct le ys) :=
    (List.perm_ext_iff_of_nodup (hnodup xs) (hnodup ys)).2 (by simpa using hmem)
  refine hperm.eq_of_pairwise (fun a b _ _ hab hba => h.key_eq a b hab hba) ?_ ?_
  · exact (hstrict xs).imp And.left
  · exact (hstrict ys).imp And.left

end Ordered

/-! ## Texts, packages and vulnerabilities -/

namespace Text

def codes (t : Text) : List Nat := t.map (·.val)

theorem codes_injective : Function.Injective codes := by
  refine List.map_injective_iff.2 fun a b h => ?_
  cases a
  cases b
  simpa using h

theorem le_iff_codes {a b : Text} : le a b = true ↔ a.codes ≤ b.codes := by
  rw [← not_lt]
  induction a generalizing b with
  | nil => simp [codes]
  | cons x a ih =>
    cases b with
    | nil => simp [codes]
    | cons y b =>
      have hcodes : codes (y :: b) < codes (x :: a) ↔
          y.val < x.val ∨ y.val = x.val ∧ codes b < codes a := List.cons_lt_cons_iff
      rw [cons_le_cons, ih, hcodes]
      grind

theorem lt_iff_codes {a b : Text} : le a b = true ∧ a ≠ b ↔ a.codes < b.codes := by
  rw [le_iff_codes, lt_iff_le_and_ne, codes_injective.ne_iff]

theorem ranksBy : Ordered.RanksBy le id where
  total := le_total
  trans := le_trans
  key_eq _ _ := le_antisymm
  le_of_key_eq a b h := by
    obtain rfl : a = b := h
    exact le_refl a

end Text

namespace Package

/-- A package comes before another one by its name, or by its version if the names are equal. -/
def Before (p q : Package) : Prop :=
  p.name.codes < q.name.codes ∨ p.name = q.name ∧ p.version.codes < q.version.codes

theorem before_iff {p q : Package} : le p q = true ∧ p ≠ q ↔ Before p q := by
  have hne : p ≠ q ↔ p.name = q.name → p.version ≠ q.version := by
    cases p
    cases q
    simp
  rw [le_iff, hne, Before, ← Text.lt_iff_codes, ← Text.lt_iff_codes]
  by_cases hname : p.name = q.name
  · simp [hname]
  · simp [hname]

theorem ranksBy : Ordered.RanksBy le id where
  total := le_total
  trans := le_trans
  key_eq _ _ := le_antisymm
  le_of_key_eq p q h := by
    obtain rfl : p = q := h
    simp [le]

end Package

namespace Vulnerability

def key (v : Vulnerability) : Nat × Text := (Severity.rank v.severity, v.id)

/-- The higher rank comes first, and among equal ranks the smaller identifier. -/
def NotAfter (v w : Vulnerability) : Prop :=
  Severity.rank w.severity < Severity.rank v.severity ∨
    Severity.rank v.severity = Severity.rank w.severity ∧ v.id.codes ≤ w.id.codes

theorem le_iff {v w : Vulnerability} : le v w = true ↔ NotAfter v w := by
  rw [le, NotAfter, ← Text.le_iff_codes]
  split_ifs with h
  · simp [h]
  · simp [h]

theorem ranksBy : Ordered.RanksBy le key where
  total v w := by
    have hid := Text.le_total v.id w.id
    simp only [Bool.or_eq_true, le_iff, NotAfter, ← Text.le_iff_codes] at hid ⊢
    grind
  trans u v w huv hvw := by
    have hid := Text.le_trans u.id v.id w.id
    simp only [le_iff, NotAfter, ← Text.le_iff_codes] at huv hvw ⊢
    grind
  key_eq v w hvw hwv := by
    simp only [le_iff, NotAfter, ← Text.le_iff_codes] at hvw hwv
    have hrank : Severity.rank v.severity = Severity.rank w.severity := by omega
    have hid : v.id = w.id := Text.le_antisymm (by grind) (by grind)
    rw [key, key, hrank, hid]
  le_of_key_eq v w h := by
    obtain ⟨hrank, hid⟩ := Prod.mk.inj h
    rw [le_iff, NotAfter, hid]
    exact .inr ⟨hrank, le_rfl⟩

theorem sorted_perm (vs : List Vulnerability) : (sorted vs).Perm vs := List.mergeSort_perm vs _

end Vulnerability

/-! ## The definite order -/

namespace ImageStats

/-- The definite order absorbs an earlier one. -/
theorem finalize_merge_finalize (s p : ImageStats) :
    (s.finalize.merge p).finalize = (s.merge p).finalize := by
  have hpackages : Package.sorted (Package.sorted s.packages ++ p.packages) =
      Package.sorted (s.packages ++ p.packages) :=
    Ordered.distinct_congr Package.ranksBy (by simp)
  have hvulnerabilities : Vulnerability.sorted
      (Vulnerability.sorted s.vulnerabilities ++ p.vulnerabilities) =
      Vulnerability.sorted (s.vulnerabilities ++ p.vulnerabilities) :=
    Vulnerability.ranksBy.mergeSort_append _ _
  simp only [finalize, merge, hpackages, hvulnerabilities]

theorem finalize_finalize (s : ImageStats) : s.finalize.finalize = s.finalize := by
  have hpackages : Package.sorted (Package.sorted s.packages) = Package.sorted s.packages :=
    Ordered.distinct_congr Package.ranksBy (by simp)
  have hvulnerabilities : Vulnerability.sorted (Vulnerability.sorted s.vulnerabilities) =
      Vulnerability.sorted s.vulnerabilities :=
    Vulnerability.ranksBy.mergeSort_mergeSort _
  simp only [finalize, hpackages, hvulnerabilities]

theorem finalize_mergeOption_finalize (s : ImageStats) (p : Option ImageStats) :
    (s.finalize.mergeOption p).finalize = (s.mergeOption p).finalize := by
  cases p with
  | none => exact finalize_finalize s
  | some p => exact finalize_merge_finalize s p

/-- Putting the result into its definite order after every merge is the same as doing it once. -/
theorem foldl_finalize (s : ImageStats) (ps : List (Option ImageStats)) :
    ps.foldl (fun s p => (s.mergeOption p).finalize) s.finalize =
      (ps.foldl mergeOption s).finalize := by
  induction ps generalizing s with
  | nil => rfl
  | cons p ps ih => rw [List.foldl_cons, List.foldl_cons, finalize_mergeOption_finalize, ih]

/-- The definite order of image statistics is a normal form that can be taken at any time. -/
theorem finalize_any_time (s : ImageStats) :
    s.finalize.packages.Pairwise Package.Before ∧
    (∀ p, p ∈ s.finalize.packages ↔ p ∈ s.packages) ∧
    s.finalize.vulnerabilities.Perm s.vulnerabilities ∧
    s.finalize.vulnerabilities.Pairwise Vulnerability.NotAfter ∧
    (∀ k, s.finalize.vulnerabilities.filter (·.key = k) =
      s.vulnerabilities.filter (·.key = k)) ∧
    { s.finalize with packages := s.packages, vulnerabilities := s.vulnerabilities } = s ∧
    s.finalize.finalize = s.finalize ∧
    (∀ p : Option ImageStats, (s.finalize.mergeOption p).finalize = (s.mergeOption p).finalize) ∧
    ∀ (p : Option ImageStats) (ps : List (Option ImageStats)),
      (p :: ps).foldl (fun s p => (s.mergeOption p).finalize) s =
        ((p :: ps).foldl mergeOption s).finalize := by
  refine ⟨?_, fun _ => Package.mem_sorted, Vulnerability.sorted_perm _, ?_,
    Vulnerability.ranksBy.filter_mergeSort _, rfl, finalize_finalize s,
    finalize_mergeOption_finalize s, fun p ps => ?_⟩
  · exact (Package.pairwise_sorted s.packages).imp Package.before_iff.1
  · exact (Vulnerability.ranksBy.pairwise_mergeSort _).imp Vulnerability.le_iff.1
  · exact foldl_finalize (s.mergeOption p) ps

end ImageStats
end ContainerDocs

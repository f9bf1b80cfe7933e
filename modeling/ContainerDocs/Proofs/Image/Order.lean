import ContainerDocs.Image.Stats
import Mathlib.Data.List.Basic

/-!
# Orders and distinct elements

Texts and packages are in a total order, so putting a list into order and dropping repetitions gives
the elements of the list, each one once and in increasing order.

## Main statements

* `Text.le_total`, `Text.le_trans`, `Text.le_antisymm` — texts are in a total order.
* `Package.le_total`, `Package.le_trans`, `Package.le_antisymm` — so are packages.
* `Ordered.mem_distinct` — the distinct elements of a list are its elements.
* `Ordered.pairwise_distinct` — they are strictly increasing.
-/

namespace ContainerDocs

/-! ## The order of texts -/

namespace Text

@[simp] theorem nil_le (b : Text) : le [] b = true := rfl

@[simp] theorem not_cons_le_nil (x : CodePoint) (a : Text) : le (x :: a) [] = false := rfl

theorem cons_le_cons {x y : CodePoint} {a b : Text} :
    le (x :: a) (y :: b) = true ↔ x.val < y.val ∨ x.val = y.val ∧ le a b = true := by
  simp [le]

@[simp] theorem le_refl (a : Text) : le a a = true := by
  induction a with
  | nil => rfl
  | cons x a ih => exact cons_le_cons.2 (.inr ⟨rfl, ih⟩)

theorem le_total (a b : Text) : (le a b || le b a) = true := by
  induction a generalizing b with
  | nil => rfl
  | cons x a ih =>
    cases b with
    | nil => rfl
    | cons y b =>
      have hrest := ih b
      rw [Bool.or_eq_true] at hrest ⊢
      rw [cons_le_cons, cons_le_cons]
      rcases Nat.lt_trichotomy x.val y.val with h | h | h
      · exact .inl (.inl h)
      · exact hrest.imp (fun hr => .inr ⟨h, hr⟩) fun hr => .inr ⟨h.symm, hr⟩
      · exact .inr (.inl h)

theorem le_trans (a b c : Text) (hab : le a b = true) (hbc : le b c = true) : le a c = true := by
  induction a generalizing b c with
  | nil => rfl
  | cons x a ih =>
    cases b with
    | nil => cases hab
    | cons y b =>
      cases c with
      | nil => cases hbc
      | cons z c =>
        rw [cons_le_cons] at hab hbc ⊢
        rcases hab with hxy | ⟨hxy, hab⟩ <;> rcases hbc with hyz | ⟨hyz, hbc⟩
        · exact .inl (Nat.lt_trans hxy hyz)
        · exact .inl (hyz ▸ hxy)
        · exact .inl (hxy ▸ hyz)
        · exact .inr ⟨hxy.trans hyz, ih b c hab hbc⟩

theorem le_antisymm {a b : Text} (hab : le a b = true) (hba : le b a = true) : a = b := by
  induction a generalizing b with
  | nil =>
    cases b with
    | nil => rfl
    | cons y b => cases hba
  | cons x a ih =>
    cases b with
    | nil => cases hab
    | cons y b =>
      rw [cons_le_cons] at hab hba
      have hval : x.val = y.val := by omega
      have hrest : le a b = true := (hab.resolve_left (by omega)).2
      have hrest' : le b a = true := (hba.resolve_left (by omega)).2
      have hxy : x = y := by
        cases x
        cases y
        simp_all
      rw [hxy, ih hrest hrest']

end Text

/-! ## The order of packages -/

namespace Package

theorem le_iff {p q : Package} :
    le p q = true ↔
      Text.le p.name q.name = true ∧ (p.name = q.name → Text.le p.version q.version = true) := by
  rw [le]
  split_ifs with h
  · simp [h]
  · simp [h]

theorem le_total (p q : Package) : (le p q || le q p) = true := by
  have hname := Text.le_total p.name q.name
  have hversion := Text.le_total p.version q.version
  rw [Bool.or_eq_true] at hname hversion ⊢
  by_cases h : p.name = q.name
  · simpa [le_iff, h] using hversion
  · simpa [le_iff, h, Ne.symm h] using hname

theorem le_trans (p q r : Package) (hpq : le p q = true) (hqr : le q r = true) :
    le p r = true := by
  rw [le_iff] at hpq hqr ⊢
  refine ⟨Text.le_trans _ _ _ hpq.1 hqr.1, fun h => ?_⟩
  have hname : p.name = q.name := Text.le_antisymm hpq.1 (h ▸ hqr.1)
  exact Text.le_trans _ _ _ (hpq.2 hname) (hqr.2 (hname ▸ h))

theorem le_antisymm {p q : Package} (hpq : le p q = true) (hqp : le q p = true) : p = q := by
  rw [le_iff] at hpq hqp
  have hname := Text.le_antisymm hpq.1 hqp.1
  have hversion := Text.le_antisymm (hpq.2 hname) (hqp.2 hname.symm)
  cases p
  cases q
  simp_all

end Package

/-! ## Distinct elements -/

namespace Ordered

variable {α : Type} [DecidableEq α] {le : α → α → Bool} {xs : List α} {a : α}

@[simp] theorem mem_squeeze : a ∈ squeeze xs ↔ a ∈ xs := by
  fun_induction squeeze xs with
  | case1 => rfl
  | case2 => rfl
  | case3 b rest ih => simp [ih]
  | case4 b c rest hne ih => simp [ih]

/-- Without equal neighbours an ordered list is strictly increasing. -/
theorem pairwise_squeeze (hanti : ∀ a b, le a b = true → le b a = true → a = b)
    (h : xs.Pairwise fun a b => le a b = true) :
    (squeeze xs).Pairwise fun a b => le a b = true ∧ a ≠ b := by
  fun_induction squeeze xs with
  | case1 => exact .nil
  | case2 => exact List.pairwise_singleton _ _
  | case3 b rest ih => exact ih h.of_cons
  | case4 b c rest hne ih =>
    obtain ⟨hb, hrest⟩ := List.pairwise_cons.1 h
    refine List.pairwise_cons.2 ⟨fun d hd => ?_, ih hrest⟩
    have hd := mem_squeeze.1 hd
    refine ⟨hb d hd, ?_⟩
    -- An element equal to `b` would stand below its neighbour `c`, which stands below it.
    rintro rfl
    rcases List.mem_cons.1 hd with hc | hd
    · exact hne hc
    · exact hne (hanti _ _ (hb c List.mem_cons_self) ((List.pairwise_cons.1 hrest).1 _ hd))

@[simp] theorem mem_distinct : a ∈ distinct le xs ↔ a ∈ xs := by
  rw [distinct, mem_squeeze, List.mem_mergeSort]

/-- The distinct elements of a list are strictly increasing. -/
theorem pairwise_distinct (htrans : ∀ a b c, le a b = true → le b c = true → le a c = true)
    (htotal : ∀ a b, (le a b || le b a) = true)
    (hanti : ∀ a b, le a b = true → le b a = true → a = b) (xs : List α) :
    (distinct le xs).Pairwise fun a b => le a b = true ∧ a ≠ b :=
  pairwise_squeeze hanti (List.pairwise_mergeSort htrans htotal xs)

end Ordered

namespace Package

@[simp] theorem mem_sorted {ps : List Package} {p : Package} : p ∈ sorted ps ↔ p ∈ ps :=
  Ordered.mem_distinct

@[simp] theorem sorted_nil : sorted [] = [] :=
  List.eq_nil_iff_forall_not_mem.2 fun p => by simp

/-- Packages in order are strictly increasing. -/
theorem pairwise_sorted (ps : List Package) :
    (sorted ps).Pairwise fun p q => le p q = true ∧ p ≠ q :=
  Ordered.pairwise_distinct le_trans le_total (fun _ _ => le_antisymm) ps

theorem nodup_sorted (ps : List Package) : (sorted ps).Nodup :=
  (pairwise_sorted ps).imp fun h => h.2

end Package
end ContainerDocs

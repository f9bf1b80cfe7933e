import ContainerDocs.Proofs.Text.CodePoint
import ContainerDocs.Proofs.Text.LetterCase

/-!
# Whole texts

A text is whole if no half of a surrogate pair is in it, so that it can be written as bytes. Strings
are whole, and what is made of whole texts by cutting, joining or a change of letter case is whole.

## Main definitions

* `Text.IsWhole` — no half of a surrogate pair is in a text.

## Main statements

* `Text.isWhole_ofString` — the text of a string is whole.
* `LetterCase.isWhole_upper`, `LetterCase.isWhole_lower` — letter case adds no halves.
-/

namespace ContainerDocs
namespace Text

def IsWhole (t : Text) : Prop := ∀ c ∈ t, c.isHalf = false

variable {t u : Text}

theorem isWhole_ofChars (cs : List Char) : IsWhole (ofChars cs) := isHalf_ofChars cs

theorem isWhole_ofString (s : String) : IsWhole (ofString s) := isWhole_ofChars s.toList

@[simp] theorem isWhole_nil : IsWhole [] := List.forall_mem_nil _

@[simp] theorem isWhole_cons {c : CodePoint} : IsWhole (c :: t) ↔ c.isHalf = false ∧ IsWhole t :=
  List.forall_mem_cons

@[simp] theorem isWhole_append : IsWhole (t ++ u) ↔ IsWhole t ∧ IsWhole u :=
  List.forall_mem_append

theorem IsWhole.append (h : IsWhole t) (h' : IsWhole u) : IsWhole (t ++ u) :=
  isWhole_append.2 ⟨h, h'⟩

theorem IsWhole.of_subset (h : IsWhole t) (hu : u ⊆ t) : IsWhole u := fun c hc => h c (hu hc)

theorem isWhole_flatMap {α : Type} {as : List α} {f : α → Text} (h : ∀ a ∈ as, IsWhole (f a)) :
    IsWhole (as.flatMap f) := by
  intro c hc
  obtain ⟨a, ha, hc⟩ := List.mem_flatMap.1 hc
  exact h a ha c hc

theorem isWhole_join {sep : Text} (hsep : IsWhole sep) {ts : List Text} (h : ∀ t ∈ ts, IsWhole t) :
    IsWhole (join sep ts) := by
  fun_induction join sep ts with
  | case1 => exact isWhole_nil
  | case2 t => exact h t List.mem_cons_self
  | case3 t ts _ ih =>
    obtain ⟨ht, hts⟩ := List.forall_mem_cons.1 h
    exact (ht.append hsep).append (ih hts)

theorem trimRight_subset {α : Type} (p : α → Bool) (as : List α) : Blank.trimRight p as ⊆ as := by
  intro a ha
  have hrest := (List.dropWhile_sublist p).subset (List.mem_reverse.1 ha)
  exact List.mem_reverse.1 hrest

theorem trim_subset {α : Type} (p : α → Bool) (as : List α) : Blank.trim p as ⊆ as :=
  fun _ ha => (List.dropWhile_sublist p).subset (trimRight_subset p _ ha)

theorem IsWhole.trim (h : IsWhole t) (p : CodePoint → Bool) : IsWhole (Blank.trim p t) :=
  h.of_subset (trim_subset p t)

end Text

/-! ## Letter case -/

namespace LetterCase

def isHalfCode (n : Nat) : Bool := 0xD800 ≤ n && n ≤ 0xDFFF

theorem isHalfCode_of_lt {n : Nat} (h : n < 0xD800) : isHalfCode n = false := by
  simp only [isHalfCode, Bool.and_eq_false_iff, decide_eq_false_iff_not]
  omega

theorem isHalf_ofNat {n : Nat} (h : isHalfCode n = false) : (CodePoint.ofNat n).isHalf = false := by
  rw [CodePoint.ofNat]
  split
  · exact h
  · decide

/-- No run moves a code point between the halves of surrogate pairs. -/
theorem runs_apart : ∀ runs ∈ [upperRuns, lowerRuns],
    runs.toList.all (fun r => r.2.2.2 + (r.2.1 - r.1) < 0xD800 || 0xDFFF < r.2.2.2) = true := by
  decide

theorem isHalfCode_shift {runs : Array Run} (hruns : runs ∈ [upperRuns, lowerRuns]) {n : Nat}
    (h : isHalfCode n = false) : isHalfCode (shift runs n) = false := by
  rw [shift]
  split
  next lo hi stride target hf =>
    have hm : (lo, hi, stride, target) ∈ runs.toList :=
      Array.mem_toList_iff.2 (Array.mem_of_find?_eq_some hf)
    have hin := Array.find?_some hf
    have ht := List.all_eq_true.1 (runs_apart runs hruns) _ hm
    simp only [Bool.and_eq_true, Bool.or_eq_true, decide_eq_true_eq, beq_iff_eq] at hin ht
    simp only [isHalfCode, Bool.and_eq_false_iff, decide_eq_false_iff_not]
    omega
  next => exact h

theorem sequences_apart :
    upperSequences.toList.all (fun s => s.2.all fun n => !isHalfCode n) = true := by decide

theorem isHalfCode_upperCode {n : Nat} (h : isHalfCode n = false) :
    ∀ k ∈ upperCode n, isHalfCode k = false := by
  intro k hk
  rw [upperCode] at hk
  by_cases hascii : n < 128
  · rw [if_pos hascii, List.mem_singleton] at hk
    refine isHalfCode_of_lt ?_
    split_ifs at hk <;> omega
  · rw [if_neg hascii] at hk
    split at hk
    next ns hf =>
      have hm := Array.mem_toList_iff.2 (Array.mem_of_find?_eq_some hf)
      have hall := List.all_eq_true.1 (List.all_eq_true.1 sequences_apart _ hm) k hk
      simpa using hall
    next =>
      rw [List.mem_singleton.1 hk]
      exact isHalfCode_shift (by simp) h

theorem isHalfCode_lowerCode {n : Nat} (h : isHalfCode n = false) :
    ∀ k ∈ lowerCode n, isHalfCode k = false := by
  intro k hk
  rw [lowerCode] at hk
  by_cases hascii : n < 128
  · rw [if_pos hascii, List.mem_singleton] at hk
    refine isHalfCode_of_lt ?_
    split_ifs at hk <;> omega
  · rw [if_neg hascii] at hk
    split_ifs at hk
    · clear h
      revert k
      decide
    · rw [List.mem_singleton.1 hk]
      exact isHalfCode_shift (by simp) h

theorem isHalfCode_lowerCodes {ns : List Nat} (h : ∀ n ∈ ns, isHalfCode n = false)
    (before : List Nat) : ∀ k ∈ lowerCodes before ns, isHalfCode k = false := by
  induction ns generalizing before with
  | nil => exact List.forall_mem_nil _
  | cons n rest ih =>
    obtain ⟨hn, hrest⟩ := List.forall_mem_cons.1 h
    rw [lowerCodes, List.forall_mem_append]
    refine ⟨?_, ih hrest _⟩
    split_ifs
    · decide
    · decide
    · exact isHalfCode_lowerCode hn

variable {t : Text}

theorem isWhole_upper (h : t.IsWhole) : (upper t).IsWhole := by
  refine Text.isWhole_flatMap fun c hc d hd => ?_
  obtain ⟨n, hn, rfl⟩ := List.mem_map.1 hd
  exact isHalf_ofNat (isHalfCode_upperCode (h c hc) n hn)

theorem isWhole_lower (h : t.IsWhole) : (lower t).IsWhole := by
  intro d hd
  obtain ⟨n, hn, rfl⟩ := List.mem_map.1 hd
  refine isHalf_ofNat (isHalfCode_lowerCodes (fun k hk => ?_) [] n hn)
  obtain ⟨c, hc, rfl⟩ := List.mem_map.1 hk
  exact h c hc

end LetterCase
end ContainerDocs

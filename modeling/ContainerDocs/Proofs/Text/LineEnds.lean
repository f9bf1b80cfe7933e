import ContainerDocs.Proofs.Text.Encoding
import ContainerDocs.Text.Lines

/-!
# Line ends as bytes

Reading every line end of a text as one line break changes the bytes of the text in the same way:
the bytes of a line end are never part of another character.

## Main definitions

* `Lines.unifyBytes` — bytes with every `\r\n` and every other `\r` replaced by `\n`.

## Main statements

* `Lines.unifyBytes_append_of_not_mem` — bytes without `\r` stay.
* `Lines.unifyBytes_eq_self_iff` — all bytes stay exactly if no `\r` is among them.
* `Lines.bytesOf_unify` — the bytes of a text with unified line ends.
-/

namespace ContainerDocs

namespace Encoding

/-- A byte below `0x80` is part of no character but its own. -/
theorem mem_encodeCode_iff {b : UInt8} {n : Nat} (hb : b.toNat < 0x80) (hn : n < 0x110000) :
    b ∈ encodeCode n ↔ n = b.toNat := by
  unfold encodeCode
  split_ifs with h1 h2 h3 <;>
    simp only [List.mem_cons, List.not_mem_nil, or_false, ← UInt8.toNat_inj,
      UInt8.toNat_ofNat'] <;> omega

theorem encodeCode_ne_nil (n : Nat) : encodeCode n ≠ [] := by
  unfold encodeCode
  split_ifs <;> exact List.cons_ne_nil _ _

theorem bytesOf_ofChars_cons (c : Char) (cs : List Char) :
    bytesOf (Text.ofChars (c :: cs)) = encodeCode c.toNat ++ bytesOf (Text.ofChars cs) := rfl

theorem encodeCode_of_lt {n : Nat} (h : n < 0x80) : encodeCode n = [UInt8.ofNat n] := by
  rw [encodeCode, if_pos h]

end Encoding

namespace Lines

open Encoding

/-- The bytes with every `\r\n` and every other `\r` replaced by `\n`. -/
def unifyBytes : Bytes → Bytes
  | [] => []
  | 13 :: 10 :: rest => 10 :: unifyBytes rest
  | b :: rest => (if b = 13 then 10 else b) :: unifyBytes rest

@[simp] theorem unifyBytes_nil : unifyBytes [] = [] := rfl

theorem unifyBytes_pair (rest : Bytes) : unifyBytes (13 :: 10 :: rest) = 10 :: unifyBytes rest :=
  rfl

theorem unifyBytes_cons {b : UInt8} {rest : Bytes} (h : b ≠ 13 ∨ rest.head? ≠ some 10) :
    unifyBytes (b :: rest) = (if b = 13 then 10 else b) :: unifyBytes rest := by
  refine unifyBytes.eq_3 b rest fun after hb hrest => ?_
  subst hb hrest
  simp at h

@[simp] theorem unifyBytes_eq_nil_iff {u : Bytes} : unifyBytes u = [] ↔ u = [] := by
  cases u using unifyBytes.fun_cases <;> simp [unifyBytes]

/-- Bytes without `\r` stay. -/
theorem unifyBytes_append_of_not_mem {u : Bytes} (h : 13 ∉ u) (v : Bytes) :
    unifyBytes (u ++ v) = u ++ unifyBytes v := by
  induction u with
  | nil => rfl
  | cons b u ih =>
    rw [List.mem_cons, not_or] at h
    rw [List.cons_append, unifyBytes_cons (.inl (Ne.symm h.1)), if_neg (Ne.symm h.1), ih h.2,
      List.cons_append]

/-- Line ends are unified part by part unless the second part completes a pair. -/
theorem unifyBytes_append {u v : Bytes} (hv : v.head? ≠ some 10) :
    unifyBytes (u ++ v) = unifyBytes u ++ unifyBytes v := by
  fun_induction unifyBytes u with
  | case1 => rfl
  | case2 rest ih => rw [List.cons_append, List.cons_append, unifyBytes_pair, ih, List.cons_append]
  | case3 b rest hpair ih =>
    rw [List.cons_append, unifyBytes_cons, ih, List.cons_append]
    refine or_iff_not_imp_left.2 fun hb => ?_
    cases rest with
    | nil => exact hv
    | cons c rest =>
      rintro hc
      cases hc
      exact hpair rest (not_not.1 hb) rfl

theorem not_mem_unifyBytes (u : Bytes) : 13 ∉ unifyBytes u := by
  fun_induction unifyBytes u with
  | case1 => simp
  | case2 rest ih => simpa using ih
  | case3 b rest _ ih =>
    rw [List.mem_cons, not_or]
    refine ⟨?_, ih⟩
    split_ifs with hb
    · decide
    · exact Ne.symm hb

/-- All bytes stay exactly if no `\r` is among them. -/
theorem unifyBytes_eq_self_iff {u : Bytes} : unifyBytes u = u ↔ 13 ∉ u := by
  constructor
  · intro h
    exact h ▸ not_mem_unifyBytes u
  · intro h
    simpa using unifyBytes_append_of_not_mem h []

/-- The line ends of unified bytes stay. -/
theorem unifyBytes_unifyBytes (u : Bytes) : unifyBytes (unifyBytes u) = unifyBytes u :=
  unifyBytes_eq_self_iff.2 (not_mem_unifyBytes u)

/-- Bytes that start with a line feed are those of a text that starts with one. -/
theorem eq_cons_of_head?_bytesOf {cs : List Char}
    (h : (bytesOf (Text.ofChars cs)).head? = some 10) : ∃ rest, cs = '\n' :: rest := by
  cases cs with
  | nil => cases h
  | cons c rest =>
    rw [bytesOf_ofChars_cons, List.head?_append_of_ne_nil _ (encodeCode_ne_nil _)] at h
    have hc := (mem_encodeCode_iff (by decide) (CodePoint.ofChar c).isLt).1
      (List.mem_of_head? h)
    exact ⟨rest, by rw [show c = '\n' from Char.ext (UInt32.toNat_inj.1 hc)]⟩

/-- The bytes of a text with unified line ends are the unified bytes of the text. -/
theorem bytesOf_unify (cs : List Char) :
    bytesOf (Text.ofChars (unify cs)) = unifyBytes (bytesOf (Text.ofChars cs)) := by
  fun_induction unify cs with
  | case1 => rfl
  | case2 rest ih =>
    have hpair : bytesOf (Text.ofChars ('\r' :: '\n' :: rest)) =
        13 :: 10 :: bytesOf (Text.ofChars rest) := rfl
    rw [hpair, unifyBytes_pair, ← ih]
    rfl
  | case3 c rest hrest ih =>
    rw [bytesOf_ofChars_cons, bytesOf_ofChars_cons, ih]
    split_ifs with hc
    · subst hc
      -- A line feed after the `\r` would be that of a pair.
      have hhead : (bytesOf (Text.ofChars rest)).head? ≠ some 10 := by
        intro h
        obtain ⟨after, hafter⟩ := eq_cons_of_head?_bytesOf h
        exact hrest after rfl hafter
      rw [encodeCode_of_lt (by decide), encodeCode_of_lt (by decide)]
      exact (unifyBytes_cons (b := 13) (.inr hhead)).symm
    · have h13 : 13 ∉ encodeCode c.toNat := fun h =>
        hc (Char.ext (UInt32.toNat_inj.1
          ((mem_encodeCode_iff (by decide) (CodePoint.ofChar c).isLt).1 h)))
      rw [unifyBytes_append_of_not_mem h13]

end Lines
end ContainerDocs

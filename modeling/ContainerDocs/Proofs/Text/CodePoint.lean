import ContainerDocs.Text.CodePoint
import Mathlib.Data.List.Basic

/-!
# Laws of text as code points

A string and its code points say the same, and a text without halves of surrogate pairs is the text
of a string.

## Main statements

* `CodePoint.ofChar_injective` — different characters have different code points.
* `Text.ofString_toStringLossy` — a text without halves is the text of its string.
-/

namespace ContainerDocs

namespace CodePoint

theorem ofChar_injective : Function.Injective ofChar := by
  intro a b h
  exact Char.ext (UInt32.toNat_inj.1 (congrArg val h))

theorem isHalf_ofChar (c : Char) : (ofChar c).isHalf = false := by
  have hval : c.toNat < 0xD800 ∨ 0xDFFF < c.toNat ∧ c.toNat < 0x110000 := c.valid
  rw [isHalf, ← Bool.not_eq_true, Bool.and_eq_true, decide_eq_true_eq, decide_eq_true_eq]
  change ¬ (0xD800 ≤ c.toNat ∧ c.toNat ≤ 0xDFFF)
  omega

theorem ofChar_toCharLossy {c : CodePoint} (h : c.isHalf = false) : ofChar c.toCharLossy = c := by
  have hlt := c.isLt
  simp only [isHalf, Bool.and_eq_false_iff, decide_eq_false_iff_not] at h
  have hvalid : c.val.isValidChar := by
    simp only [Nat.isValidChar]
    omega
  rw [toCharLossy, toChar?, dif_pos hvalid]
  cases c
  rfl

end CodePoint

namespace Text

@[simp] theorem ofChars_nil : ofChars [] = [] := rfl

@[simp] theorem ofChars_cons (c : Char) (cs : List Char) :
    ofChars (c :: cs) = CodePoint.ofChar c :: ofChars cs := rfl

@[simp] theorem ofChars_append (cs ds : List Char) :
    ofChars (cs ++ ds) = ofChars cs ++ ofChars ds :=
  List.map_append

@[simp] theorem ofString_append (s t : String) :
    ofString (s ++ t) = ofString s ++ ofString t := by
  simp [ofString, ofChars]

theorem ofChar_mem_ofString {c : Char} {s : String} :
    CodePoint.ofChar c ∈ ofString s ↔ c ∈ s.toList :=
  List.mem_map_of_injective CodePoint.ofChar_injective

theorem isHalf_ofChars (cs : List Char) : ∀ c ∈ ofChars cs, c.isHalf = false := by
  intro c hc
  obtain ⟨d, -, rfl⟩ := List.mem_map.1 hc
  exact CodePoint.isHalf_ofChar d

theorem ofString_toStringLossy {t : Text} (h : ∀ c ∈ t, c.isHalf = false) :
    ofString t.toStringLossy = t := by
  rw [ofString, ofChars, toStringLossy, String.toList_ofList, List.map_map]
  exact List.map_congr_left (fun c hc => CodePoint.ofChar_toCharLossy (h c hc)) |>.trans
    (List.map_id t)

end Text
end ContainerDocs

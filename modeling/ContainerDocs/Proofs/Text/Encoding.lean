import ContainerDocs.Proofs.Text.CodePoint
import ContainerDocs.Text.Encoding

/-!
# Laws of UTF-8

Text that has been read from bytes is written as the same bytes.

## Main definitions

* `Encoding.bytesOf` — the bytes of the code points of a text.

## Main statements

* `Encoding.encode_eq_ok_iff` — a text without halves of surrogate pairs is written, code point by
  code point.
* `Encoding.encodeCode_of_frontUtf8` — the bytes that are read as a code point are its bytes.
* `Encoding.bytesOf_of_decodeString` — writing undoes reading.
-/

namespace ContainerDocs
namespace Encoding

/-! ## Writing -/

/-- The bytes of the code points of a text, one code point after another. -/
def bytesOf (t : Text) : Bytes := t.flatMap fun c => encodeCode c.val

@[simp] theorem bytesOf_nil : bytesOf [] = [] := rfl

@[simp] theorem bytesOf_cons (c : CodePoint) (t : Text) :
    bytesOf (c :: t) = encodeCode c.val ++ bytesOf t := rfl

@[simp] theorem bytesOf_append (t u : Text) : bytesOf (t ++ u) = bytesOf t ++ bytesOf u :=
  List.flatMap_append

theorem bytesOf_ofString (s : String) : bytesOf (Text.ofString s) = encodeString s :=
  List.flatMap_map ..

theorem encodeFrom_eq_ok_iff {position : Nat} {t : Text} {bytes : Bytes} :
    encodeFrom position t = .ok bytes ↔ (∀ c ∈ t, c.isHalf = false) ∧ bytesOf t = bytes := by
  induction t generalizing position bytes with
  | nil => simp [encodeFrom]
  | cons c t ih =>
    cases hc : c.isHalf with
    | true => simp [encodeFrom, hc]
    | false =>
      rw [encodeFrom, if_neg (by simp [hc])]
      cases ht : encodeFrom (position + 1) t with
      | error e =>
        have hnone : (∀ c ∈ t, c.isHalf = false) →
            encodeFrom (position + 1) t = .ok (bytesOf t) := fun h => ih.2 ⟨h, rfl⟩
        rw [ht] at hnone
        constructor
        · rintro ⟨⟩
        · rintro ⟨h, -⟩
          cases hnone fun d hd => h d (List.mem_cons_of_mem c hd)
      | ok rest =>
        obtain ⟨hall, hrest⟩ := ih.1 ht
        have hok : (Except.ok rest >>= fun bytes => Pure.pure (encodeCode c.val ++ bytes)) =
            (Except.ok (bytesOf (c :: t)) : Except EncodeError Bytes) := by
          rw [bytesOf_cons, hrest]
          rfl
        rw [hok, Except.ok.injEq, List.forall_mem_cons]
        exact ⟨fun h => ⟨⟨hc, hall⟩, h⟩, fun h => h.2⟩

theorem encode_eq_ok_iff {t : Text} {bytes : Bytes} :
    encode t = .ok bytes ↔ (∀ c ∈ t, c.isHalf = false) ∧ bytesOf t = bytes :=
  encodeFrom_eq_ok_iff

/-! ## Reading -/

theorem isContinuation_iff {b : UInt8} :
    isContinuation b = true ↔ 0x80 ≤ b.toNat ∧ b.toNat < 0xC0 := by
  simp only [isContinuation, Bool.and_eq_true, decide_eq_true_eq, UInt8.le_iff_toNat_le]
  change 128 ≤ b.toNat ∧ b.toNat ≤ 191 ↔ _
  omega

theorem allowsSecond_iff {a b : UInt8} :
    allowsSecond a b = true ↔ 0x80 ≤ b.toNat ∧ b.toNat < 0xC0 ∧
      (a.toNat = 0xE0 → 0xA0 ≤ b.toNat) ∧ (a.toNat = 0xED → b.toNat < 0xA0) ∧
      (a.toNat = 0xF0 → 0x90 ≤ b.toNat) ∧ (a.toNat = 0xF4 → b.toNat < 0x90) := by
  simp only [allowsSecond, Bool.and_eq_true, isContinuation_iff, Bool.not_eq_true',
    ← Bool.not_eq_true, beq_iff_eq, decide_eq_true_eq, UInt8.le_iff_toNat_le,
    UInt8.lt_iff_toNat_lt, ← UInt8.toNat_inj, UInt8.reduceToNat]
  omega

theorem ofNat_eq_of_toNat {a : UInt8} {n : Nat} (h : n = a.toNat) : UInt8.ofNat n = a :=
  h ▸ UInt8.ofNat_toNat

theorem encodeCode_two {a b : UInt8} (ha : 0xC2 ≤ a.toNat) (ha' : a.toNat < 0xE0)
    (hb : isContinuation b = true) : encodeCode (a.toNat % 32 * 64 + payload b) = [a, b] := by
  rw [isContinuation_iff] at hb
  rw [encodeCode, payload, if_neg (by omega), if_pos (by omega),
    ofNat_eq_of_toNat (a := a) (by omega), ofNat_eq_of_toNat (a := b) (by omega)]

theorem encodeCode_three {a b c : UInt8} (ha : 0xE0 ≤ a.toNat) (ha' : a.toNat < 0xF0)
    (hb : allowsSecond a b = true) (hc : isContinuation c = true) :
    encodeCode ((a.toNat % 16 * 64 + payload b) * 64 + payload c) = [a, b, c] := by
  rw [allowsSecond_iff] at hb
  rw [isContinuation_iff] at hc
  rw [encodeCode, payload, payload, if_neg (by omega), if_neg (by omega), if_pos (by omega),
    ofNat_eq_of_toNat (a := a) (by omega), ofNat_eq_of_toNat (a := b) (by omega),
    ofNat_eq_of_toNat (a := c) (by omega)]

theorem encodeCode_four {a b c d : UInt8} (ha : 0xF0 ≤ a.toNat) (ha' : a.toNat < 0xF5)
    (hb : allowsSecond a b = true) (hc : isContinuation c = true) (hd : isContinuation d = true) :
    encodeCode (((a.toNat % 8 * 64 + payload b) * 64 + payload c) * 64 + payload d) =
      [a, b, c, d] := by
  rw [allowsSecond_iff] at hb
  rw [isContinuation_iff] at hc hd
  rw [encodeCode, payload, payload, payload, if_neg (by omega), if_neg (by omega),
    if_neg (by omega), ofNat_eq_of_toNat (a := a) (by omega), ofNat_eq_of_toNat (a := b) (by omega),
    ofNat_eq_of_toNat (a := c) (by omega), ofNat_eq_of_toNat (a := d) (by omega)]

/-- What is read as one code point are the bytes of a code point that is no half of a pair. -/
theorem encodeCode_of_frontUtf8 {a : UInt8} {rest : Bytes} {n length : Nat}
    (h : frontUtf8 a rest = .codePoint n length) :
    encodeCode n ++ rest.drop (length - 1) = a :: rest ∧
      n < 0x110000 ∧ (n < 0xD800 ∨ 0xDFFF < n) := by
  unfold frontUtf8 at h
  simp only [UInt8.lt_iff_toNat_lt, UInt8.le_iff_toNat_le, UInt8.reduceToNat, Bool.or_eq_true,
    decide_eq_true_eq, Bool.not_eq_true', ← Bool.not_eq_true] at h
  split_ifs at h with h80 hstart he0 hf0
  · cases h
    rw [encodeCode, if_pos h80, UInt8.ofNat_toNat]
    exact ⟨rfl, by omega, by omega⟩
  · rcases rest with - | ⟨b, rest⟩
    · cases h
    · dsimp only at h
      split_ifs at h with hb
      cases h
      rw [encodeCode_two (by omega) he0 hb]
      rw [isContinuation_iff] at hb
      exact ⟨rfl, by rw [payload]; omega, by rw [payload]; omega⟩
  · rcases rest with - | ⟨b, - | ⟨c, rest⟩⟩
    · cases h
    · dsimp only at h
      split_ifs at h
    · dsimp only at h
      split_ifs at h with hb hc
      cases h
      rw [encodeCode_three (by omega) hf0 hb hc]
      rw [allowsSecond_iff] at hb
      rw [isContinuation_iff] at hc
      exact ⟨rfl, by simp only [payload]; omega, by simp only [payload]; omega⟩
  · rcases rest with - | ⟨b, - | ⟨c, - | ⟨d, rest⟩⟩⟩
    · cases h
    · dsimp only at h
      split_ifs at h
    · dsimp only at h
      split_ifs at h
    · dsimp only at h
      split_ifs at h with hb hc hd
      cases h
      rw [encodeCode_four (by omega) (by omega) hb hc hd]
      rw [allowsSecond_iff] at hb
      rw [isContinuation_iff] at hc hd
      exact ⟨rfl, by simp only [payload]; omega, by simp only [payload]; omega⟩

/-- Reading skips the bytes of a code point that has been read, and the rest are the bytes of what
it gives. -/
theorem bytesOf_of_decodeFrom {position skip : Nat} {bytes : Bytes} {t : Text}
    (h : decodeFrom .utf8 false position skip bytes = .ok t) :
    bytesOf t = bytes.drop skip ∧ ∀ c ∈ t, c.isHalf = false := by
  induction bytes generalizing position skip t with
  | nil =>
    cases h
    simp
  | cons a rest ih =>
    cases skip with
    | succ skip => exact ih h
    | zero =>
      rw [decodeFrom, front] at h
      cases hfront : frontUtf8 a rest with
      | fault reason length =>
        rw [hfront] at h
        cases h
      | codePoint n length =>
        obtain ⟨hbytes, hlt, hhalf⟩ := encodeCode_of_frontUtf8 hfront
        rw [hfront] at h
        dsimp only at h
        cases htext : decodeFrom .utf8 false (position + 1) (length - 1) rest with
        | error e =>
          rw [htext] at h
          cases h
        | ok text =>
          obtain ⟨hrest, hall⟩ := ih htext
          rw [htext] at h
          cases h
          have hval : (CodePoint.ofNat n).val = n := by rw [CodePoint.ofNat, dif_pos hlt]
          refine ⟨?_, List.forall_mem_cons.2 ⟨?_, hall⟩⟩
          · rw [bytesOf_cons, hrest, hval, hbytes, List.drop_zero]
          · rw [CodePoint.isHalf, hval, ← Bool.not_eq_true, Bool.and_eq_true, decide_eq_true_eq,
              decide_eq_true_eq]
            omega

/-- Writing undoes reading. -/
theorem bytesOf_of_decodeString {bytes : Bytes} {s : String} (h : decodeString bytes = .ok s) :
    bytesOf (Text.ofString s) = bytes := by
  rw [decodeString, decode] at h
  cases ht : decodeFrom .utf8 false 0 0 bytes with
  | error e =>
    rw [ht] at h
    cases h
  | ok t =>
    obtain ⟨hbytes, hall⟩ := bytesOf_of_decodeFrom ht
    rw [ht] at h
    cases h
    rw [Text.ofString_toStringLossy hall, hbytes, List.drop_zero]

/-! ## Reading what has been written -/

theorem toNat_ofNat_of_lt {k : Nat} (h : k < 256) : (UInt8.ofNat k).toNat = k := by
  rw [UInt8.toNat_ofNat', Nat.mod_eq_of_lt h]

/-- The bytes of a code point that is no half of a pair are read as that code point. -/
theorem frontUtf8_of_encodeCode {n : Nat} (hn : n < 0x110000) (hhalf : n < 0xD800 ∨ 0xDFFF < n) :
    ∃ a rest, encodeCode n = a :: rest ∧
      ∀ v, frontUtf8 a (rest ++ v) = .codePoint n (rest.length + 1) := by
  have hcont : ∀ k : Nat, isContinuation (UInt8.ofNat (0x80 + k % 64)) = true := by
    intro k
    rw [isContinuation_iff, toNat_ofNat_of_lt (by omega)]
    omega
  rw [encodeCode]
  split_ifs with h1 h2 h3 <;> refine ⟨_, _, rfl, fun v => ?_⟩
  · have ha := toNat_ofNat_of_lt (k := n) (by omega)
    simp only [frontUtf8, UInt8.lt_iff_toNat_lt, UInt8.reduceToNat, ha, List.length_nil]
    rw [if_pos h1]
  · have ha := toNat_ofNat_of_lt (k := 0xC0 + n / 64) (by omega)
    have hb := toNat_ofNat_of_lt (k := 0x80 + n % 64) (by omega)
    simp only [frontUtf8, UInt8.lt_iff_toNat_lt, UInt8.le_iff_toNat_le, UInt8.reduceToNat, ha,
      Bool.or_eq_true, decide_eq_true_eq, List.cons_append, List.nil_append, hcont, payload, hb,
      if_true]
    rw [if_neg (by omega), if_neg (by omega), if_pos (by omega), Front.codePoint.injEq]
    exact ⟨by omega, rfl⟩
  · have ha := toNat_ofNat_of_lt (k := 0xE0 + n / 4096) (by omega)
    have hb := toNat_ofNat_of_lt (k := 0x80 + n / 64 % 64) (by omega)
    have hc := toNat_ofNat_of_lt (k := 0x80 + n % 64) (by omega)
    have hsecond : allowsSecond (UInt8.ofNat (0xE0 + n / 4096)) (UInt8.ofNat (0x80 + n / 64 % 64)) =
        true := by
      rw [allowsSecond_iff, ha, hb]
      omega
    simp only [frontUtf8, UInt8.lt_iff_toNat_lt, UInt8.le_iff_toNat_le, UInt8.reduceToNat, ha,
      Bool.or_eq_true, decide_eq_true_eq, List.cons_append, List.nil_append, hcont, payload, hb, hc,
      hsecond, Bool.not_true, Bool.false_eq_true, if_true, if_false]
    rw [if_neg (by omega), if_neg (by omega), if_neg (by omega), if_pos (by omega),
      Front.codePoint.injEq]
    exact ⟨by omega, rfl⟩
  · have ha := toNat_ofNat_of_lt (k := 0xF0 + n / 262144) (by omega)
    have hb := toNat_ofNat_of_lt (k := 0x80 + n / 4096 % 64) (by omega)
    have hc := toNat_ofNat_of_lt (k := 0x80 + n / 64 % 64) (by omega)
    have hd := toNat_ofNat_of_lt (k := 0x80 + n % 64) (by omega)
    have hsecond : allowsSecond (UInt8.ofNat (0xF0 + n / 262144))
        (UInt8.ofNat (0x80 + n / 4096 % 64)) = true := by
      rw [allowsSecond_iff, ha, hb]
      omega
    simp only [frontUtf8, UInt8.lt_iff_toNat_lt, UInt8.le_iff_toNat_le, UInt8.reduceToNat, ha,
      Bool.or_eq_true, decide_eq_true_eq, List.cons_append, List.nil_append, hcont, payload, hb, hc,
      hd, hsecond, Bool.not_true, Bool.false_eq_true, if_true, if_false]
    rw [if_neg (by omega), if_neg (by omega), if_neg (by omega), if_neg (by omega),
      Front.codePoint.injEq]
    exact ⟨by omega, rfl⟩

theorem decodeFrom_append {form : Form} {halves : Bool} {position : Nat} (u v : Bytes) :
    decodeFrom form halves position u.length (u ++ v) =
      decodeFrom form halves (position + u.length) 0 v := by
  induction u generalizing position with
  | nil => rfl
  | cons a u ih =>
    rw [List.cons_append, List.length_cons, decodeFrom, ih, Nat.add_right_comm, Nat.add_assoc]

theorem decodeFrom_bytesOf {halves : Bool} {position : Nat} {t : Text}
    (h : ∀ c ∈ t, c.isHalf = false) : decodeFrom .utf8 halves position 0 (bytesOf t) = .ok t := by
  induction t generalizing position with
  | nil => rfl
  | cons c t ih =>
    obtain ⟨hc, ht⟩ := List.forall_mem_cons.1 h
    have hhalf : c.val < 0xD800 ∨ 0xDFFF < c.val := by
      simp only [CodePoint.isHalf, Bool.and_eq_false_iff, decide_eq_false_iff_not] at hc
      omega
    obtain ⟨a, rest, hcode, hfront⟩ := frontUtf8_of_encodeCode c.isLt hhalf
    rw [bytesOf_cons, hcode, List.cons_append, decodeFrom, front, hfront]
    dsimp only
    rw [Nat.add_sub_cancel, decodeFrom_append, ih ht, CodePoint.ofNat, dif_pos c.isLt]
    rfl

/-- Reading undoes writing. -/
theorem decodeString_bytesOf {t : Text} (h : ∀ c ∈ t, c.isHalf = false) :
    decodeString (bytesOf t) = .ok t.toStringLossy := by
  rw [decodeString, decode, decodeFrom_bytesOf h]
  rfl

end Encoding
end ContainerDocs

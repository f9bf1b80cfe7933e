import ContainerDocs.Proofs.Output.Region
import ContainerDocs.Proofs.Text.LineEnds
import Mathlib.Data.Bool.AllAny

/-!
# Regions in the bytes of a document

A marker of plain characters is found among the bytes of a document where it is found in its text,
and unifying line ends moves it to where the bytes before it have moved.

## Main definitions

* `Section.outside?` — the bytes before and after the region of a section.

## Main statements

* `Section.cut?_append_of_not_mem` — a cut steps over elements that the pattern does not hold.
* `Section.outside?_bytesOf` — the region is that of the text.
* `Section.outside?_unifyBytes` — unifying line ends keeps the region.
* `Section.region?_append_written` — the region after a report has been written there.
-/

namespace ContainerDocs
namespace Section

open Encoding Lines

/-- The bytes of a document before and after the region of a section, its markers included. -/
def outside? (content : Bytes) (name : String) : Option (Bytes × Bytes) := do
  let (before, rest) ← cut? (encodeString (beginMarker name)) content
  let (_, after) ← cut? (encodeString (endMarker name)) rest
  return (before, after)

def IsPlain (name : String) : Prop :=
  ∀ c ∈ name.toList, c.toNat < 0x80 ∧ c ≠ '\r' ∧ c ≠ '\n'

/-! ## Cuts -/

section Cut

variable {α : Type} [BEq α] [LawfulBEq α] {pattern u v : List α}

theorem cut?_of_isPrefix (h : pattern <+: u) :
    cut? pattern u = some ([], u.drop pattern.length) := by
  obtain ⟨v, rfl⟩ := h
  exact cut?_eq_some_iff.2 ⟨by simp, fun _ _ _ => Nat.zero_le _⟩

theorem cut?_cons_of_not_isPrefix {a : α} (h : ¬ pattern <+: a :: u) :
    cut? pattern (a :: u) = (cut? pattern u).map fun (x, y) => (a :: x, y) := by
  rw [cut?, if_neg (by rwa [List.isPrefixOf_iff_prefix])]

/-- A cut steps over elements that the pattern does not hold. -/
theorem cut?_append_of_not_mem (hp : pattern ≠ []) (hu : ∀ a ∈ u, a ∉ pattern) (v : List α) :
    cut? pattern (u ++ v) = (cut? pattern v).map fun (x, y) => (u ++ x, y) := by
  induction u with
  | nil => simp
  | cons a u ih =>
    obtain ⟨ha, hu⟩ := List.forall_mem_cons.1 hu
    have hprefix : ¬ pattern <+: a :: (u ++ v) := by
      cases pattern with
      | nil => exact absurd rfl hp
      | cons b pattern => exact fun h => ha (by simp [(List.cons_prefix_cons.1 h).1])
    rw [List.cons_append, cut?_cons_of_not_isPrefix hprefix, ih hu, Option.map_map]
    rfl

end Cut

/-! ## The bytes of a text -/

section Text

variable {p t : Text}

/-- A pattern of plain code points is at the front of a text exactly if its bytes are at the front
of the bytes of the text. -/
theorem bytesOf_prefix_iff (hp : ∀ c ∈ p, c.val < 0x80) : bytesOf p <+: bytesOf t ↔ p <+: t := by
  induction p generalizing t with
  | nil => simp
  | cons c p ih =>
    obtain ⟨hc, hp'⟩ := List.forall_mem_cons.1 hp
    cases t with
    | nil => simp [encodeCode_of_lt hc]
    | cons d t =>
      rw [bytesOf_cons, bytesOf_cons, encodeCode_of_lt hc]
      constructor
      · intro h
        obtain ⟨b, bs, hd⟩ := List.exists_cons_of_ne_nil (encodeCode_ne_nil d.val)
        have hb : UInt8.ofNat c.val = b := by
          rw [hd] at h
          exact (List.cons_prefix_cons.1 h).1
        have hval : (UInt8.ofNat c.val).toNat = c.val := by
          rw [UInt8.toNat_ofNat']
          omega
        have hdc : d.val = (UInt8.ofNat c.val).toNat :=
          (mem_encodeCode_iff (by omega) d.isLt).1 (by rw [hd, hb]; exact List.mem_cons_self)
        obtain rfl : d = c := by
          cases c
          cases d
          simp_all
        rw [encodeCode_of_lt hc] at h
        exact List.cons_prefix_cons.2 ⟨rfl, (ih hp').1 (List.cons_prefix_cons.1 h).2⟩
      · intro h
        obtain ⟨rfl, ht⟩ := List.cons_prefix_cons.1 h
        rw [encodeCode_of_lt hc]
        exact List.cons_prefix_cons.2 ⟨rfl, (ih hp').2 ht⟩

@[simp] theorem bytesOf_eq_nil_iff : bytesOf p = [] ↔ p = [] := by
  cases p with
  | nil => simp
  | cons c p => simp [encodeCode_ne_nil]

theorem bytesOf_ne_nil (hp : p ≠ []) : bytesOf p ≠ [] :=
  fun h => hp (bytesOf_eq_nil_iff.1 h)

/-- The bytes of a pattern of plain code points are cut out where the pattern is. -/
theorem cut?_bytesOf (hp : ∀ c ∈ p, c.val < 0x80) (hne : p ≠ []) (t : Text) :
    cut? (bytesOf p) (bytesOf t) = (cut? p t).map (Prod.map bytesOf bytesOf) := by
  induction t with
  | nil =>
    rw [bytesOf_nil, cut?, cut?, if_neg (by simpa using bytesOf_ne_nil hne),
      if_neg (by simpa using hne)]
    rfl
  | cons d t ih =>
    by_cases hprefix : p <+: d :: t
    · rw [cut?_of_isPrefix hprefix, cut?_of_isPrefix ((bytesOf_prefix_iff hp).2 hprefix)]
      obtain ⟨u, hu⟩ := hprefix
      simp [← hu, Prod.map]
    · rw [cut?_cons_of_not_isPrefix hprefix, Option.map_map]
      by_cases hd : d.val < 0x80
      · have hbytes := (bytesOf_prefix_iff hp).not.2 hprefix
        rw [bytesOf_cons, encodeCode_of_lt hd, List.singleton_append] at hbytes ⊢
        rw [cut?_cons_of_not_isPrefix hbytes, ih, Option.map_map]
        refine congrFun (congrArg Option.map (funext fun q => ?_)) _
        simp [Prod.map, encodeCode_of_lt hd]
      · -- No byte of a wider code point is one of the pattern.
        have hdisjoint : ∀ b ∈ encodeCode d.val, b ∉ bytesOf p := by
          intro b hb hbp
          obtain ⟨c, hc, hbc⟩ := List.mem_flatMap.1 hbp
          rw [encodeCode_of_lt (hp c hc), List.mem_singleton] at hbc
          have hval : b.toNat = c.val := by
            rw [hbc, UInt8.toNat_ofNat']
            have := hp c hc
            omega
          have hlt := hp c hc
          have := (mem_encodeCode_iff (by omega) d.isLt).1 hb
          omega
        rw [bytesOf_cons, cut?_append_of_not_mem (bytesOf_ne_nil hne) hdisjoint, ih, Option.map_map]
        rfl

end Text

/-! ## Unified line ends -/

section LineEnds

variable {pattern u : Bytes}

theorem head?_unifyBytes_return (u : Bytes) : (unifyBytes (13 :: u)).head? = some 10 := by
  by_cases h : u.head? = some 10
  · obtain ⟨after, rfl⟩ := List.head?_eq_some_iff.1 h
    rw [unifyBytes_pair]
    rfl
  · rw [unifyBytes_cons (.inr h)]
    rfl

/-- A pattern without line ends at the front was there before the line ends were unified. -/
theorem prefix_of_unifyBytes (hr : 13 ∉ pattern) (hn : 10 ∉ pattern)
    (h : pattern <+: unifyBytes u) : pattern <+: u := by
  induction pattern generalizing u with
  | nil => exact List.nil_prefix
  | cons a pattern ih =>
    rw [List.mem_cons, not_or] at hr hn
    cases u with
    | nil => exact h
    | cons b u =>
      by_cases hb : b = 13
      · subst hb
        obtain ⟨v, hv⟩ := h
        have hhead := head?_unifyBytes_return u
        rw [← hv] at hhead
        exact absurd (Option.some.inj hhead).symm hn.1
      · rw [unifyBytes_cons (.inl hb), if_neg hb] at h
        obtain ⟨rfl, hrest⟩ := List.cons_prefix_cons.1 h
        exact List.cons_prefix_cons.2 ⟨rfl, ih hr.2 hn.2 hrest⟩

/-- Unifying line ends moves a pattern without line ends to where the bytes before it move. -/
theorem cut?_unifyBytes (hr : 13 ∉ pattern) (hn : 10 ∉ pattern) (hne : pattern ≠ []) (u : Bytes) :
    cut? pattern (unifyBytes u) = (cut? pattern u).map (Prod.map unifyBytes unifyBytes) := by
  fun_induction unifyBytes u with
  | case1 =>
    rw [cut?, if_neg (by simpa using hne)]
    rfl
  | case2 rest ih =>
    have hpair := cut?_append_of_not_mem (u := [13, 10]) hne (by simp [hr, hn]) rest
    have hbreak := cut?_append_of_not_mem (u := [10]) hne (by simp [hn]) (unifyBytes rest)
    simp only [List.cons_append, List.nil_append] at hpair hbreak
    rw [hpair, hbreak, ih, Option.map_map, Option.map_map]
    refine congrFun (congrArg Option.map (funext fun q => ?_)) _
    simp [Prod.map, unifyBytes_pair]
  | case3 b rest hrest ih =>
    by_cases hb : b = 13
    · subst hb
      have hhead : rest.head? ≠ some 10 := by
        intro h
        obtain ⟨after, hafter⟩ := List.head?_eq_some_iff.1 h
        exact hrest after rfl hafter
      have hold := cut?_append_of_not_mem (u := [13]) hne (by simp [hr]) rest
      have hnew := cut?_append_of_not_mem (u := [10]) hne (by simp [hn]) (unifyBytes rest)
      simp only [List.cons_append, List.nil_append] at hold hnew
      rw [if_pos rfl, hold, hnew, ih, Option.map_map, Option.map_map]
      refine Option.map_congr fun q hq => ?_
      -- What stands before the pattern starts no pair with the `\r` either.
      have hq' : q.1.head? ≠ some 10 := by
        intro h
        obtain ⟨after, hafter⟩ := List.head?_eq_some_iff.1 h
        rw [(cut?_eq_some_iff.1 hq).1, hafter] at hhead
        exact hhead rfl
      simp [Prod.map, unifyBytes_cons (.inr hq')]
    · rw [if_neg hb]
      by_cases hprefix : pattern <+: b :: rest
      · obtain ⟨v, hv⟩ := hprefix
        have hnew : b :: unifyBytes rest = pattern ++ unifyBytes v := by
          rw [← unifyBytes_append_of_not_mem hr, hv, unifyBytes_cons (.inl hb), if_neg hb]
        rw [← hv, hnew, cut?_of_isPrefix (List.prefix_append _ _),
          cut?_of_isPrefix (List.prefix_append _ _), List.drop_left, List.drop_left]
        rfl
      · have hnew : ¬ pattern <+: b :: unifyBytes rest := by
          intro h
          refine hprefix (prefix_of_unifyBytes hr hn ?_)
          rwa [unifyBytes_cons (.inl hb), if_neg hb]
        rw [cut?_cons_of_not_isPrefix hprefix, cut?_cons_of_not_isPrefix hnew, ih, Option.map_map,
          Option.map_map]
        refine congrFun (congrArg Option.map (funext fun q => ?_)) _
        simp [Prod.map, unifyBytes_cons (.inl hb), if_neg hb]

end LineEnds

/-! ## The region of a section -/

section Region

variable {name : String}

theorem IsPlain.markers (h : IsPlain name) :
    IsPlain (beginMarker name) ∧ IsPlain (endMarker name) := by
  have hname : IsPlain (nameOf name) := by
    rw [nameOf]
    split
    · exact List.all_iff_forall_prop.1 (by decide)
    · exact h
  simp only [IsPlain, beginMarker, endMarker, String.toList_append, List.forall_mem_append]
  refine ⟨⟨⟨?_, hname⟩, ?_⟩, ⟨?_, hname⟩, ?_⟩ <;> exact List.all_iff_forall_prop.1 (by decide)

theorem IsPlain.val_lt {s : String} (h : IsPlain s) : ∀ c ∈ Text.ofString s, c.val < 0x80 := by
  intro c hc
  obtain ⟨d, hd, rfl⟩ := List.mem_map.1 hc
  exact (h d hd).1

theorem IsPlain.lineEnd_not_mem {s : String} (h : IsPlain s) :
    13 ∉ encodeString s ∧ 10 ∉ encodeString s := by
  constructor <;> intro hmem <;> obtain ⟨c, hc, hbyte⟩ := List.mem_flatMap.1 hmem
  · have hval := (mem_encodeCode_iff (by decide) (CodePoint.ofChar c).isLt).1 hbyte
    exact (h c hc).2.1 (Char.ext (UInt32.toNat_inj.1 hval))
  · have hval := (mem_encodeCode_iff (by decide) (CodePoint.ofChar c).isLt).1 hbyte
    exact (h c hc).2.2 (Char.ext (UInt32.toNat_inj.1 hval))

theorem ofString_marker_ne_nil (name : String) :
    Text.ofString (beginMarker name) ≠ [] ∧ Text.ofString (endMarker name) ≠ [] :=
  ⟨List.ne_nil_of_length_pos (length_beginMarker_pos name),
    List.ne_nil_of_length_pos (length_endMarker_pos name)⟩

/-- The bytes around the region of a section are those of the text around it. -/
theorem outside?_bytesOf (h : IsPlain name) (d : Text) :
    outside? (bytesOf d) name = (region? d name).map (Prod.map bytesOf bytesOf) := by
  obtain ⟨hbegin, hend⟩ := h.markers
  obtain ⟨hb, he⟩ := ofString_marker_ne_nil name
  rw [outside?, region?, ← bytesOf_ofString, ← bytesOf_ofString, cut?_bytesOf hbegin.val_lt hb]
  rcases cut? (Text.ofString (beginMarker name)) d with - | ⟨before, rest⟩
  · rfl
  · simp only [Option.bind_eq_bind, Option.map_some, Option.bind_some, Prod.map,
      cut?_bytesOf hend.val_lt he]
    rcases cut? (Text.ofString (endMarker name)) rest with - | ⟨inside, after⟩ <;> rfl

/-- Unifying line ends keeps the region of a section where it is. -/
theorem outside?_unifyBytes (h : IsPlain name) (content : Bytes) :
    outside? (unifyBytes content) name =
      (outside? content name).map (Prod.map unifyBytes unifyBytes) := by
  obtain ⟨hbegin, hend⟩ := h.markers
  obtain ⟨hb, he⟩ := ofString_marker_ne_nil name
  have hb := bytesOf_ne_nil hb
  have he := bytesOf_ne_nil he
  rw [bytesOf_ofString] at hb he
  rw [outside?, outside?, cut?_unifyBytes hbegin.lineEnd_not_mem.1 hbegin.lineEnd_not_mem.2 hb]
  rcases cut? (encodeString (beginMarker name)) content with - | ⟨before, rest⟩
  · rfl
  · simp only [Option.bind_eq_bind, Option.map_some, Option.bind_some, Prod.map,
      cut?_unifyBytes hend.lineEnd_not_mem.1 hend.lineEnd_not_mem.2 he]
    rcases cut? (encodeString (endMarker name)) rest with - | ⟨inside, after⟩ <;> rfl

section Again

variable {d x y : Text}

/-- A section that has been written is found again. It ends where it was written to end unless its
report holds an end marker. -/
theorem region?_append_written (hname : '\n' ∉ name.toList) (h : region? d name = some (x, y))
    (report : Text) :
    region? (x ++ (written name report ++ y)) name =
      match cut? (Text.ofString (endMarker name)) (body report) with
      | none => some (x, y)
      | some (_, rest) =>
        some (x, rest ++ ("\n" ++ (Text.ofString (endMarker name) ++ y))) := by
  have hbreak := (lineBreak_not_mem hname).2
  obtain ⟨inside, rest, hbegin, -⟩ := region?_eq_some_iff.1 h
  obtain ⟨hd, -⟩ := cut?_eq_some_iff.1 hbegin
  rw [hd] at hbegin
  have hbegin' := cut?_append (cut?_of_append (y := []) hbegin)
    (lines (body report) ++ (Text.ofString (endMarker name) ++ y))
  have hd' : x ++ (written name report ++ y) = x ++ Text.ofString (beginMarker name) ++
      (lines (body report) ++ (Text.ofString (endMarker name) ++ y)) := by
    simp [written, lines]
  rw [hd']
  cases hbody : cut? (Text.ofString (endMarker name)) (body report) with
  | none =>
    have hend := cut?_append_lines hbreak (cut?_eq_none_iff.1 hbody) []
      (Text.ofString (endMarker name) ++ y)
    have hnil : cut? (Text.ofString (endMarker name)) [] = none := by
      refine cut?_eq_none_iff.2 fun hinfix => ?_
      exact (ofString_marker_ne_nil name).2 (List.infix_nil.1 hinfix)
    rw [hnil, cut?_of_isPrefix (List.prefix_append _ _), List.drop_left] at hend
    exact region?_eq_some_iff.2 ⟨_, _, hbegin', hend⟩
  | some parts =>
    have hend := cut?_append_of_not_mem (ofString_marker_ne_nil name).2
      (u := [CodePoint.ofChar '\n']) (by simpa using hbreak)
      (body report ++ CodePoint.ofChar '\n' :: (Text.ofString (endMarker name) ++ y))
    rw [cut?_append hbody] at hend
    refine region?_eq_some_iff.2 ⟨CodePoint.ofChar '\n' :: parts.1, _, hbegin', ?_⟩
    rw [List.nil_append, lines_append]
    exact hend

end Again

end Region
end Section
end ContainerDocs

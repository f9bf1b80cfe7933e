import ContainerDocs.Output.Section
import ContainerDocs.Proofs.Text.CodePoint
import Mathlib.Data.List.Infix

/-!
# Regions of a document

A pattern is cut out at its first place. So what comes after that place does not matter to the cut,
and what comes before it matters only as far as it holds the pattern. A line break, which no marker
holds, keeps what is before it apart from what is after it.

## Main statements

* `Section.cut?_eq_some_iff`, `Section.cut?_eq_none_iff` — a cut is the one at the first place.
* `Section.cut?_append`, `Section.cut?_of_append`, `Section.cut?_of_append_left` — cuts of parts.
* `Section.cut?_append_cons` — a pattern does not reach over an element that it does not hold.
* `Section.region?_eq_some_iff` — a region is the first begin marker up to the next end marker.
* `Section.region?_splice_before`, `Section.region?_splice_after`, `Section.region?_splice_none` —
  what an exchanged block of lines leaves of the regions around it.
-/

namespace ContainerDocs
namespace Section

/-! ## Cuts -/

section Cut

variable {α : Type} [BEq α] [LawfulBEq α] {pattern text u v x y : List α} {c : α}

/-- A cut takes a text apart at the first place of a pattern. -/
theorem cut?_eq_some_iff :
    cut? pattern text = some (x, y) ↔
      text = x ++ pattern ++ y ∧
        ∀ x' y', text = x' ++ pattern ++ y' → x.length ≤ x'.length := by
  induction text generalizing x with
  | nil =>
    rw [cut?]
    split_ifs with h
    · rw [List.isEmpty_iff] at h
      subst h
      constructor
      · intro h
        cases h
        exact ⟨rfl, fun _ _ _ => Nat.zero_le _⟩
      · rintro ⟨h, -⟩
        obtain ⟨hx, hy⟩ := List.append_eq_nil_iff.1 h.symm
        simp_all
    · simp_all
  | cons a rest ih =>
    rw [cut?]
    by_cases h : pattern.isPrefixOf (a :: rest) = true
    · obtain ⟨after, hafter⟩ := List.isPrefixOf_iff_prefix.1 h
      rw [if_pos h, ← hafter, List.drop_left]
      constructor
      · intro h
        cases h
        exact ⟨rfl, fun _ _ _ => Nat.zero_le _⟩
      · rintro ⟨heq, hfirst⟩
        have hx : x = [] := List.length_eq_zero_iff.1 (Nat.le_zero.1 (hfirst [] after rfl))
        subst hx
        rw [List.nil_append] at heq
        rw [List.append_cancel_left heq]
    · rw [if_neg h]
      constructor
      · intro hcut
        obtain ⟨⟨before, after⟩, hrest, hxy⟩ := Option.map_eq_some_iff.1 hcut
        cases hxy
        obtain ⟨heq, hfirst⟩ := ih.1 hrest
        refine ⟨by rw [heq]; rfl, fun x' y' hx' => ?_⟩
        cases x' with
        | nil => exact absurd (List.isPrefixOf_iff_prefix.2 ⟨y', hx'.symm⟩) h
        | cons b x' =>
          obtain ⟨-, hx'⟩ := List.cons.inj hx'
          exact Nat.succ_le_succ (hfirst x' y' hx')
      · rintro ⟨heq, hfirst⟩
        cases x with
        | nil => exact absurd (List.isPrefixOf_iff_prefix.2 ⟨y, heq.symm⟩) h
        | cons b x =>
          obtain ⟨rfl, hrest⟩ := List.cons.inj heq
          refine Option.map_eq_some_iff.2 ⟨(x, y), ih.2 ⟨hrest, fun x' y' hx' => ?_⟩, rfl⟩
          exact Nat.le_of_succ_le_succ (hfirst (a :: x') y' (by rw [hx']; rfl))

/-- There is no cut exactly if the pattern is nowhere in the text. -/
theorem cut?_eq_none_iff : cut? pattern text = none ↔ ¬ pattern <:+: text := by
  induction text with
  | nil =>
    rw [cut?, List.infix_nil]
    cases pattern <;> simp
  | cons a rest ih =>
    rw [cut?, List.infix_cons_iff, ← List.isPrefixOf_iff_prefix]
    split_ifs with h
    · simp [h]
    · simp [h, ih]

theorem exists_cut? (h : pattern <:+: text) : ∃ x y, cut? pattern text = some (x, y) := by
  cases hcut : cut? pattern text with
  | none => exact absurd h (cut?_eq_none_iff.1 hcut)
  | some p => exact ⟨p.1, p.2, rfl⟩

/-- What comes after the first place of a pattern does not matter. -/
theorem cut?_append (h : cut? pattern u = some (x, y)) (v : List α) :
    cut? pattern (u ++ v) = some (x, y ++ v) := by
  obtain ⟨rfl, hfirst⟩ := cut?_eq_some_iff.1 h
  refine cut?_eq_some_iff.2 ⟨by simp, fun x' y' hx' => ?_⟩
  -- A place before that of `x` would end within `x ++ pattern ++ y`.
  by_contra hlt
  have hlen : (x' ++ pattern).length ≤ (x ++ pattern ++ y).length := by
    simp only [List.length_append]
    omega
  have hwithin : x' ++ pattern <+: x ++ pattern ++ y :=
    List.prefix_of_prefix_length_le ⟨y', hx'.symm⟩ (List.prefix_append _ v) hlen
  obtain ⟨y'', hy''⟩ := hwithin
  exact hlt (hfirst x' y'' hy''.symm)

theorem cut?_of_append (h : cut? pattern (u ++ v) = some (x, y ++ v)) :
    cut? pattern u = some (x, y) := by
  obtain ⟨heq, hfirst⟩ := cut?_eq_some_iff.1 h
  rw [← List.append_assoc] at heq
  have heq := List.append_cancel_right heq
  refine cut?_eq_some_iff.2 ⟨heq, fun x' y' hx' => ?_⟩
  exact hfirst x' (y' ++ v) (by rw [hx', List.append_assoc])

theorem cut?_of_append_left (h : cut? pattern (u ++ v) = some (u ++ x, y)) :
    cut? pattern v = some (x, y) := by
  obtain ⟨heq, hfirst⟩ := cut?_eq_some_iff.1 h
  simp only [List.append_assoc] at heq
  have heq := List.append_cancel_left heq
  refine cut?_eq_some_iff.2 ⟨by rw [heq, List.append_assoc], fun x' y' hx' => ?_⟩
  have hle := hfirst (u ++ x') y' (by rw [hx']; simp)
  simp only [List.length_append] at hle
  omega

/-- The text after a cut ends with the text after any other place of the pattern. -/
theorem suffix_of_cut? (h : cut? pattern text = some (x, y)) {x' y' : List α}
    (hx' : text = x' ++ pattern ++ y') : y' <:+ y := by
  obtain ⟨heq, hfirst⟩ := cut?_eq_some_iff.1 h
  have hle := hfirst x' y' hx'
  have hlen := congrArg List.length (heq.symm.trans hx')
  simp only [List.length_append] at hlen
  have hother : y' <:+ text := hx' ▸ List.suffix_append _ _
  have hcut : y <:+ text := heq ▸ List.suffix_append _ _
  exact List.suffix_of_suffix_length_le hother hcut (by omega)

omit [BEq α] [LawfulBEq α] in
/-- A place of a pattern is on one side of an element that the pattern does not hold. -/
theorem append_cons_eq_append (hc : c ∉ pattern) (h : u ++ c :: v = x ++ pattern ++ y) :
    (∃ y', u = x ++ pattern ++ y' ∧ y = y' ++ c :: v) ∨
      ∃ x', x = u ++ c :: x' ∧ v = x' ++ pattern ++ y := by
  rcases List.append_eq_append_iff.1 h with ⟨z, hz, hz'⟩ | ⟨z, hz, hz'⟩
  · cases z with
    | nil => exact .inl ⟨[], by simpa using hz.symm, by simpa using hz'.symm⟩
    | cons d z =>
      obtain ⟨rfl, rfl⟩ := List.cons.inj hz'
      rcases List.append_eq_append_iff.1 hz with ⟨b, -, hb⟩ | ⟨b, hb, hb'⟩
      · exact absurd (hb ▸ List.mem_append_right b List.mem_cons_self) hc
      · cases b with
        | nil =>
          rw [List.nil_append] at hb'
          exact absurd (hb' ▸ List.mem_cons_self) hc
        | cons d b =>
          obtain ⟨rfl, rfl⟩ := List.cons.inj hb'
          exact .inr ⟨b, hb, rfl⟩
  · exact .inl ⟨z, hz, hz'⟩

/-- A cut is made before an element that the pattern does not hold, if the pattern is there, and
else after it. -/
theorem cut?_append_cons (hc : c ∉ pattern) (u v : List α) :
    cut? pattern (u ++ c :: v) =
      match cut? pattern u with
      | some (x, y) => some (x, y ++ c :: v)
      | none => (cut? pattern v).map fun (x, y) => (u ++ c :: x, y) := by
  cases hu : cut? pattern u with
  | some p => exact cut?_append hu (c :: v)
  | none =>
    have hleft := cut?_eq_none_iff.1 hu
    dsimp only
    cases hv : cut? pattern v with
    | none =>
      refine cut?_eq_none_iff.2 ?_
      rintro ⟨x, y, h⟩
      rcases append_cons_eq_append hc h.symm with ⟨y', h, -⟩ | ⟨x', -, h⟩
      · exact hleft ⟨x, y', h.symm⟩
      · exact cut?_eq_none_iff.1 hv ⟨x', y, h.symm⟩
    | some p =>
      obtain ⟨hp, hfirst⟩ := cut?_eq_some_iff.1 hv
      refine cut?_eq_some_iff.2 ⟨by rw [hp]; simp, fun x y h => ?_⟩
      rcases append_cons_eq_append hc h with ⟨y', hu', -⟩ | ⟨x', rfl, hv'⟩
      · exact absurd ⟨x, y', hu'.symm⟩ hleft
      · have hle := hfirst x' y hv'
        simp only [List.length_append, List.length_cons]
        omega

end Cut

/-! ## Markers -/

section Marker

variable {name : String}

/-- A name without line breaks gives markers without line breaks. -/
theorem lineBreak_not_mem (h : '\n' ∉ name.toList) :
    CodePoint.ofChar '\n' ∉ Text.ofString (beginMarker name) ∧
      CodePoint.ofChar '\n' ∉ Text.ofString (endMarker name) := by
  have hname : '\n' ∉ (nameOf name).toList := by
    rw [nameOf]
    split
    · decide
    · exact h
  simp only [Text.ofChar_mem_ofString, beginMarker, endMarker, String.toList_append,
    List.mem_append, not_or]
  exact ⟨⟨⟨by decide, hname⟩, by decide⟩, ⟨by decide, hname⟩, by decide⟩

theorem length_beginMarker_pos (name : String) : 0 < (Text.ofString (beginMarker name)).length := by
  simp [beginMarker, Text.ofString, Text.ofChars]

theorem length_endMarker_pos (name : String) : 0 < (Text.ofString (endMarker name)).length := by
  simp [endMarker, Text.ofString, Text.ofChars]

end Marker

/-! ## Regions -/

section Region

variable {name : String} {d u v x y : Text}

/-- A region reaches from the first begin marker to the first end marker after it. -/
theorem region?_eq_some_iff :
    region? d name = some (x, y) ↔
      ∃ inside rest, cut? (Text.ofString (beginMarker name)) d = some (x, rest) ∧
        cut? (Text.ofString (endMarker name)) rest = some (inside, y) := by
  simp only [region?, Option.bind_eq_bind, Option.bind_eq_some_iff, Option.pure_def,
    Option.some.injEq, Prod.exists, Prod.mk.injEq]
  constructor
  · rintro ⟨x', rest, hbegin, inside, y', hend, rfl, rfl⟩
    exact ⟨inside, rest, hbegin, hend⟩
  · rintro ⟨inside, rest, hbegin, hend⟩
    exact ⟨x, rest, hbegin, inside, y, hend, rfl, rfl⟩

theorem region?_eq_none_iff :
    region? d name = none ↔
      ∀ before rest, cut? (Text.ofString (beginMarker name)) d = some (before, rest) →
        cut? (Text.ofString (endMarker name)) rest = none := by
  constructor
  · intro h before rest hbegin
    by_contra hsome
    obtain ⟨⟨inside, after⟩, hend⟩ := Option.ne_none_iff_exists'.1 hsome
    exact absurd (region?_eq_some_iff.2 ⟨inside, rest, hbegin, hend⟩) (by simp [h])
  · intro h
    by_contra hsome
    obtain ⟨⟨before, after⟩, hregion⟩ := Option.ne_none_iff_exists'.1 hsome
    obtain ⟨inside, rest, hbegin, hend⟩ := region?_eq_some_iff.1 hregion
    rw [h before rest hbegin] at hend
    cases hend

/-- A document is made of what comes before a region, the region and what comes after it. -/
theorem exists_inside (h : region? d name = some (x, y)) :
    ∃ inside, d = x ++ Text.ofString (beginMarker name) ++ inside ++
      Text.ofString (endMarker name) ++ y := by
  obtain ⟨inside, rest, hbegin, hend⟩ := region?_eq_some_iff.1 h
  obtain ⟨hd, -⟩ := cut?_eq_some_iff.1 hbegin
  obtain ⟨hrest, -⟩ := cut?_eq_some_iff.1 hend
  exact ⟨inside, by rw [hd, hrest]; simp⟩

theorem region?_append (h : region? u name = some (x, y)) (v : Text) :
    region? (u ++ v) name = some (x, y ++ v) := by
  obtain ⟨inside, rest, hbegin, hend⟩ := region?_eq_some_iff.1 h
  exact region?_eq_some_iff.2 ⟨inside, rest ++ v, cut?_append hbegin v, cut?_append hend v⟩

theorem region?_of_append (h : region? (u ++ v) name = some (x, y ++ v)) :
    region? u name = some (x, y) := by
  obtain ⟨inside, rest, hbegin, hend⟩ := region?_eq_some_iff.1 h
  obtain ⟨hrest, -⟩ := cut?_eq_some_iff.1 hend
  rw [← List.append_assoc] at hrest
  rw [hrest] at hbegin hend
  exact region?_eq_some_iff.2 ⟨inside, _, cut?_of_append hbegin, cut?_of_append hend⟩

/-! ## Exchanging a block of lines -/

variable {i b : Text}

def lines (b : Text) : Text := "\n" ++ b ++ "\n"

theorem lines_append (b v : Text) :
    lines b ++ v = CodePoint.ofChar '\n' :: (b ++ CodePoint.ofChar '\n' :: v) := by
  simp [lines, Text.ofString, Text.ofChars]

/-- A pattern without line breaks that is not in a block on lines of its own is before it or after
it. -/
theorem cut?_append_lines {pattern : Text} (hn : CodePoint.ofChar '\n' ∉ pattern)
    (hb : ¬ pattern <:+: b) (u v : Text) :
    cut? pattern (u ++ lines b ++ v) =
      match cut? pattern u with
      | some (x, y) => some (x, y ++ lines b ++ v)
      | none => (cut? pattern v).map fun (x, y) => (u ++ lines b ++ x, y) := by
  simp only [List.append_assoc, lines_append]
  rw [cut?_append_cons hn]
  rcases cut? pattern u with - | ⟨x, y⟩
  · dsimp only
    rw [cut?_append_cons hn, cut?_eq_none_iff.2 hb]
    simp [Function.comp_def]
  · rfl

/-- A region before a block does not depend on the block. -/
theorem region?_splice_before (h : region? (u ++ i ++ v) name = some (x, y ++ i ++ v)) (j : Text) :
    region? (u ++ j ++ v) name = some (x, y ++ j ++ v) := by
  rw [List.append_assoc] at h ⊢
  rw [List.append_assoc] at h ⊢
  exact region?_append (region?_of_append h) (j ++ v)

/-- A region after a block does not depend on the block, as long as the block stands on lines of its
own and holds no begin marker. -/
theorem region?_splice_after (hname : '\n' ∉ name.toList)
    (hb : ¬ Text.ofString (beginMarker name) <:+: b)
    (h : region? (u ++ i ++ v) name = some (u ++ i ++ x, y)) :
    region? (u ++ lines b ++ v) name = some (u ++ lines b ++ x, y) := by
  obtain ⟨inside, rest, hbegin, hend⟩ := region?_eq_some_iff.1 h
  have hu : cut? (Text.ofString (beginMarker name)) u = none := by
    by_contra hsome
    obtain ⟨⟨x', y'⟩, hu⟩ := Option.ne_none_iff_exists'.1 hsome
    -- A marker in `u` would stand before the first one.
    have hfirst := cut?_append hu (i ++ v)
    rw [← List.append_assoc, hbegin, Option.some.injEq, Prod.mk.injEq] at hfirst
    have hlen := congrArg List.length (cut?_eq_some_iff.1 hu).1
    have hlen' := congrArg List.length hfirst.1
    have hpos := length_beginMarker_pos name
    simp only [List.length_append] at hlen hlen'
    omega
  refine region?_eq_some_iff.2 ⟨inside, rest, ?_, hend⟩
  rw [cut?_append_lines (lineBreak_not_mem hname).1 hb, hu, cut?_of_append_left hbegin]
  rfl

/-- Without a region there is none after the exchange of a block either, as long as the new block
stands on lines of its own and holds no markers. -/
theorem region?_splice_none (hname : '\n' ∉ name.toList)
    (hb : ¬ Text.ofString (beginMarker name) <:+: b)
    (hb' : ¬ Text.ofString (endMarker name) <:+: b)
    (h : region? (u ++ i ++ v) name = none) : region? (u ++ lines b ++ v) name = none := by
  obtain ⟨hnb, hne⟩ := lineBreak_not_mem hname
  rw [region?_eq_none_iff] at h ⊢
  intro before rest hbegin
  rw [cut?_append_lines hnb hb] at hbegin
  cases hu : cut? (Text.ofString (beginMarker name)) u with
  | some p =>
    obtain ⟨x, y⟩ := p
    rw [hu] at hbegin
    cases hbegin
    -- The begin marker stands before the block, and no end marker follows it.
    have hnone := cut?_eq_none_iff.1 (h before (y ++ (i ++ v)) (by
      rw [List.append_assoc]
      exact cut?_append hu _))
    have hy : cut? (Text.ofString (endMarker name)) y = none :=
      cut?_eq_none_iff.2 fun hy => hnone (hy.trans (List.prefix_append _ _).isInfix)
    have hv : cut? (Text.ofString (endMarker name)) v = none :=
      cut?_eq_none_iff.2 fun hv => hnone (hv.trans ((List.suffix_append i v).trans
        (List.suffix_append y _)).isInfix)
    rw [cut?_append_lines hne hb', hy, hv]
    rfl
  | none =>
    rw [hu] at hbegin
    obtain ⟨⟨x, y⟩, hv, hxy⟩ := Option.map_eq_some_iff.1 hbegin
    cases hxy
    obtain ⟨hv, -⟩ := cut?_eq_some_iff.1 hv
    -- The begin marker stands after the block, so no end marker follows the first one either.
    have hplace : u ++ i ++ v = (u ++ i ++ x) ++ Text.ofString (beginMarker name) ++ rest := by
      rw [hv]
      simp
    obtain ⟨x', y', hfirst⟩ := exists_cut? ⟨_, _, hplace.symm⟩
    have hnone := cut?_eq_none_iff.1 (h x' y' hfirst)
    exact cut?_eq_none_iff.2 fun hy => hnone (hy.trans (suffix_of_cut? hfirst hplace).isInfix)

end Region
end Section
end ContainerDocs

import ContainerDocs.Program.Generate
import ContainerDocs.Proofs.Output.Region
import ContainerDocs.Proofs.System.Run

/-!
# Several sections in one document

Reports for different sections of a document can be put into it in any order, as long as the regions
of the sections do not overlap and no report holds a marker: each report ends up between its
markers, and the rest of the document stays.

## Main definitions

* `Section.rewrite` — a document with the regions of sections written anew.
* `Section.Apart` — sections whose regions do not overlap.
* `Section.Piece` — a piece of a document that is put together of sections and other text.

## Main statements

* `Section.Layout.inject` — what an injection leaves of the other sections of a document.
* `Section.Layout.exec_injectAll` — injections one after another.
* `Section.inject_any_order` — they give the same document in any order.
-/

namespace ContainerDocs
namespace Section

/-! ## Documents written anew -/

/-- The place at which the region of a section starts; the start of the document for a section that
has none. -/
def startOf (d : Text) (name : String) : Nat := ((region? d name).map (·.1.length)).getD 0

/-- A document from a place on, with the regions of sections in the order of the document written
anew: the markers stay and the report stands between them. -/
def rewriteFrom (d : Text) (place : Nat) : List (String × Text) → Text
  | [] => d.drop place
  | (name, report) :: rest =>
    match region? d name with
    | none => rewriteFrom d place rest
    | some (before, after) =>
      before.drop place ++ written name report ++ rewriteFrom d (d.length - after.length) rest

def rewrite (d : Text) (sections : List (String × Text)) : Text :=
  rewriteFrom d 0 (sections.mergeSort fun s t => startOf d s.1 ≤ startOf d t.1)

/-- The regions of two sections do not overlap, if both are there. -/
def Apart (d : Text) (name name' : String) : Prop :=
  ∀ r ∈ region? d name, ∀ r' ∈ region? d name',
    d.length - r.2.length ≤ r'.1.length ∨ d.length - r'.2.length ≤ r.1.length

instance (d : Text) (name name' : String) : Decidable (Apart d name name') :=
  inferInstanceAs (Decidable (∀ r ∈ region? d name, ∀ r' ∈ region? d name', _))

theorem written_eq (name : String) (report : Text) :
    written name report = Text.ofString (beginMarker name) ++ lines (body report) ++
      Text.ofString (endMarker name) := by
  simp [written, lines]

theorem body_isInfix (report : Text) : body report <:+: report := by
  rw [body, Blank.trim, Blank.trimRight]
  have hstart := List.dropWhile_suffix (· = CodePoint.ofChar '\n') (l := report)
  refine List.IsInfix.trans (List.IsPrefix.isInfix ?_) hstart.isInfix
  rw [← List.reverse_suffix, List.reverse_reverse]
  exact List.dropWhile_suffix _

/-! ## Pieces of a document -/

/-- A piece of a document: plain text, or the region of a section that a report is put into. -/
inductive Piece where
  | plain (text : Text)
  | placed (name : String) (report inside : Text)

namespace Piece

/-- The text of a piece before the report is put in. -/
def old : Piece → Text
  | plain text => text
  | placed name _ inside =>
    Text.ofString (beginMarker name) ++ inside ++ Text.ofString (endMarker name)

def new : Piece → Text
  | plain text => text
  | placed name report _ => written name report

def section? : Piece → Option (String × Text)
  | plain _ => none
  | placed name report _ => some (name, report)

theorem filterMap_section?_plain (text : Text) (ps : List Piece) :
    (plain text :: ps).filterMap section? = ps.filterMap section? := rfl

theorem filterMap_section?_placed (name : String) (report inside : Text) (ps : List Piece) :
    (placed name report inside :: ps).filterMap section? =
      (name, report) :: ps.filterMap section? := rfl

theorem eq_append_of_mem {ps : List Piece} {e : String × Text} (h : e ∈ ps.filterMap section?) :
    ∃ left inside right, ps = left ++ placed e.1 e.2 inside :: right := by
  obtain ⟨p, hp, he⟩ := List.mem_filterMap.1 h
  obtain ⟨left, right, rfl⟩ := List.append_of_mem hp
  cases p with
  | plain text => cases he
  | placed name report inside =>
    cases he
    exact ⟨left, inside, right, rfl⟩

theorem flatMap_new_eq_old {ps : List Piece} (h : ps.filterMap section? = []) :
    ps.flatMap new = ps.flatMap old := by
  refine List.flatMap_congr fun p hp => ?_
  cases p with
  | plain text => rfl
  | placed name report inside => cases List.filterMap_eq_nil_iff.1 h _ hp

end Piece

open Piece

/-- A document is made of pieces, one for each section of a list that it has. -/
structure Layout (d : Text) (sections : List (String × Text)) (ps : List Piece) : Prop where
  text : ps.flatMap old = d
  sections : (ps.filterMap section?).Perm (sections.filter fun e => isIn d e.1)
  regions : ∀ left name report inside right, ps = left ++ placed name report inside :: right →
    region? d name = some (left.flatMap old, right.flatMap old)

/-- The markers of all sections of a list are clean: their names hold no line break, and no report
holds one of them. -/
structure Clean (sections : List (String × Text)) : Prop where
  name : ∀ e ∈ sections, '\n' ∉ e.1.toList
  report : ∀ e ∈ sections, ∀ e' ∈ sections,
    ¬ Text.ofString (beginMarker e.1) <:+: e'.2 ∧ ¬ Text.ofString (endMarker e.1) <:+: e'.2

theorem Clean.perm {l l' : List (String × Text)} (h : Clean l) (hp : l'.Perm l) : Clean l' where
  name e he := h.name e (hp.mem_iff.1 he)
  report e he e' he' := h.report e (hp.mem_iff.1 he) e' (hp.mem_iff.1 he')

theorem Clean.of_cons {e : String × Text} {l : List (String × Text)} (h : Clean (e :: l)) :
    Clean l where
  name e he := h.name e (List.mem_cons_of_mem _ he)
  report e he e' he' := h.report e (List.mem_cons_of_mem _ he) e' (List.mem_cons_of_mem _ he')

/-! ## One injection -/

section Inject

variable {d : Text} {e : String × Text} {l : List (String × Text)} {ps left right : List Piece}
  {inside : Text}

theorem split_eq_split {α : Type} {left right left' right' : List α} {a b : α}
    (h : left ++ a :: right = left' ++ b :: right') :
    (left = left' ∧ a = b ∧ right = right') ∨
      (∃ mid, left = left' ++ b :: mid ∧ right' = mid ++ a :: right) ∨
      ∃ mid, left' = left ++ a :: mid ∧ right = mid ++ b :: right' := by
  rcases List.append_eq_append_iff.1 h with ⟨mid, hl, hr⟩ | ⟨mid, hl, hr⟩
  · cases mid with
    | nil =>
      obtain ⟨hab, hr⟩ := List.cons.inj hr
      exact .inl ⟨by simpa using hl.symm, hab, hr⟩
    | cons c mid =>
      obtain ⟨rfl, rfl⟩ := List.cons.inj hr
      exact .inr (.inr ⟨mid, hl, rfl⟩)
  · cases mid with
    | nil =>
      obtain ⟨hab, hr⟩ := List.cons.inj hr
      exact .inl ⟨by simpa using hl, hab.symm, hr.symm⟩
    | cons c mid =>
      obtain ⟨rfl, rfl⟩ := List.cons.inj hr
      exact .inr (.inl ⟨mid, hl, rfl⟩)

theorem isIn_iff {name : String} : isIn d name = true ↔ ∃ x y, region? d name = some (x, y) := by
  simp [isIn, Option.isSome_iff_exists]

theorem not_isIn_iff {name : String} : isIn d name = false ↔ region? d name = none := by
  rw [isIn, Option.isSome_eq_false_iff, Option.isNone_iff_eq_none]

theorem flatMap_old_placed (left right : List Piece) (name : String) (report inside : Text) :
    (left ++ placed name report inside :: right).flatMap old =
      (left.flatMap old ++ Text.ofString (beginMarker name)) ++ inside ++
        (Text.ofString (endMarker name) ++ right.flatMap old) := by
  simp [old]

theorem flatMap_old_written (left right : List Piece) (name : String) (report : Text) :
    (left ++ plain (written name report) :: right).flatMap old =
      (left.flatMap old ++ Text.ofString (beginMarker name)) ++ lines (body report) ++
        (Text.ofString (endMarker name) ++ right.flatMap old) := by
  simp [old, written_eq]

/-- Writing one piece anew leaves the regions of the others where they are. -/
theorem Layout.region?_written {name name' : String} {report report' inside inside' : Text}
    {left' right' : List Piece} (hl : Layout d l (left ++ placed name report inside :: right))
    (hname : '\n' ∉ name'.toList) (hclean : ¬ Text.ofString (beginMarker name') <:+: body report)
    (hsplit : left ++ plain (written name report) :: right =
      left' ++ placed name' report' inside' :: right') :
    region? ((left ++ plain (written name report) :: right).flatMap old) name' =
      some (left'.flatMap old, right'.flatMap old) := by
  have hd := hl.text
  rw [flatMap_old_placed] at hd
  rw [flatMap_old_written]
  rcases split_eq_split hsplit with ⟨-, hp, -⟩ | ⟨mid, rfl, rfl⟩ | ⟨mid, rfl, rfl⟩
  · cases hp
  · have h := hl.regions left' name' report' inside' (mid ++ placed name report inside :: right)
      (by simp)
    rw [flatMap_old_placed mid, ← hd] at h
    rw [region?_splice_before h, flatMap_old_written]
  · have h := hl.regions (left ++ placed name report inside :: mid) name' report' inside' right'
      (by simp)
    rw [flatMap_old_placed left, ← hd] at h
    rw [region?_splice_after hname hclean h, flatMap_old_written]

/-- Writing one piece anew gives no section a region that had none. -/
theorem Layout.region?_written_none {name name' : String} {report inside : Text}
    (hl : Layout d l (left ++ placed name report inside :: right)) (hname : '\n' ∉ name'.toList)
    (hb : ¬ Text.ofString (beginMarker name') <:+: body report)
    (hb' : ¬ Text.ofString (endMarker name') <:+: body report) (h : region? d name' = none) :
    region? ((left ++ plain (written name report) :: right).flatMap old) name' = none := by
  rw [← hl.text, flatMap_old_placed] at h
  rw [flatMap_old_written]
  exact region?_splice_none hname hb hb' h

theorem Clean.body (hc : Clean (e :: l)) {e' : String × Text} (he' : e' ∈ l) :
    ¬ Text.ofString (beginMarker e'.1) <:+: body e.2 ∧
      ¬ Text.ofString (endMarker e'.1) <:+: body e.2 := by
  obtain ⟨hb, hb'⟩ := hc.report e' (List.mem_cons_of_mem _ he') e List.mem_cons_self
  exact ⟨fun h => hb (h.trans (body_isInfix _)), fun h => hb' (h.trans (body_isInfix _))⟩

/-- An injection writes one piece anew, and what was there of the other sections is still there. -/
theorem Layout.inject (hl : Layout d (e :: l) ps) (hc : Clean (e :: l)) (he : isIn d e.1 = true) :
    ∃ d' ps', inject d e.1 e.2 = .ok d' ∧ Layout d' l ps' ∧ ps'.flatMap new = ps.flatMap new ∧
      ∀ e' ∈ l, isIn d' e'.1 = isIn d e'.1 := by
  have hsections := hl.sections
  rw [List.filter_cons, if_pos he] at hsections
  obtain ⟨left, inside, right, rfl⟩ :=
    eq_append_of_mem (hsections.mem_iff.2 List.mem_cons_self)
  have hrest : ((left ++ plain (written e.1 e.2) :: right).filterMap section?).Perm
      (l.filter fun e' => isIn d e'.1) := by
    rw [List.filterMap_append, filterMap_section?_placed] at hsections
    rw [List.filterMap_append, filterMap_section?_plain]
    exact (List.perm_middle.symm.trans hsections).cons_inv
  have hname : ∀ e' ∈ l, '\n' ∉ e'.1.toList := fun e' he' => hc.of_cons.name e' he'
  have hkept : ∀ e' ∈ l, isIn ((left ++ plain (written e.1 e.2) :: right).flatMap old) e'.1 =
      isIn d e'.1 := by
    intro e' he'
    cases hin : isIn d e'.1 with
    | true =>
      obtain ⟨left', inside', right', hsplit⟩ :=
        eq_append_of_mem (hrest.mem_iff.2 (List.mem_filter.2 ⟨he', hin⟩))
      exact isIn_iff.2 ⟨_, _, hl.region?_written (hname e' he') (hc.body he').1 hsplit⟩
    | false =>
      rw [not_isIn_iff] at hin ⊢
      exact hl.region?_written_none (hname e' he') (hc.body he').1 (hc.body he').2 hin
  refine ⟨_, left ++ plain (written e.1 e.2) :: right, ?_, ⟨rfl, ?_, ?_⟩, ?_, hkept⟩
  · rw [Section.inject, hl.regions left e.1 e.2 inside right rfl]
    simp [old]
  · rw [List.filter_congr hkept]
    exact hrest
  · intro left' name report inside' right' hsplit
    have hmem : (name, report) ∈ l := by
      refine (List.mem_filter.1 (hrest.mem_iff.1 ?_)).1
      rw [hsplit, List.filterMap_append, filterMap_section?_placed]
      simp
    exact hl.region?_written (hname _ hmem) (hc.body hmem).1 hsplit
  · simp [new]

end Inject

/-! ## Cutting a document into pieces -/

structure Pieces (d : Text) (place : Nat) (sections : List (String × Text)) (ps : List Piece) :
    Prop where
  old : ps.flatMap old = d.drop place
  new : ps.flatMap new = rewriteFrom d place sections
  sections : ps.filterMap section? = sections.filter fun e => isIn d e.1
  regions : ∀ left name report inside right, ps = left ++ placed name report inside :: right →
    region? d name = some (d.take place ++ left.flatMap Piece.old, right.flatMap Piece.old)

namespace Pieces

variable {d : Text} {place : Nat} {l : List (String × Text)} {ps : List Piece}

theorem nil (d : Text) (place : Nat) : Pieces d place [] [plain (d.drop place)] where
  old := by simp [Piece.old]
  new := by simp [Piece.new, rewriteFrom]
  sections := rfl
  regions left name report inside right h := by
    rcases List.cons_eq_append_iff.1 h with ⟨-, h⟩ | ⟨left', -, h⟩
    · cases h
    · simp at h

theorem cons_missing {e : String × Text} (h : Pieces d place l ps) (he : region? d e.1 = none) :
    Pieces d place (e :: l) ps where
  old := h.old
  new := by rw [h.new, rewriteFrom, he]
  sections := by rw [h.sections, List.filter_cons, if_neg (by simp [isIn, he])]
  regions := h.regions

theorem cons_found {name : String} {report before inside after : Text}
    (hle : place ≤ before.length)
    (hd : d = before ++ (Text.ofString (beginMarker name) ++ inside ++
      Text.ofString (endMarker name)) ++ after)
    (hregion : region? d name = some (before, after))
    (h : Pieces d (d.length - after.length) l ps) :
    Pieces d place ((name, report) :: l)
      (plain (before.drop place) :: placed name report inside :: ps) := by
  have hstop : d.length - after.length = (before ++ (Text.ofString (beginMarker name) ++ inside ++
      Text.ofString (endMarker name))).length := by
    rw [hd, List.length_append, Nat.add_sub_cancel]
  have hafter : d.drop (d.length - after.length) = after := by
    rw [hstop, hd, List.drop_left]
  have htake : d.take (d.length - after.length) = before ++ (Text.ofString (beginMarker name) ++
      inside ++ Text.ofString (endMarker name)) := by
    rw [hstop, hd, List.take_left]
  have hbefore : d.take place ++ before.drop place = before := by
    rw [hd, List.append_assoc, List.take_append_of_le_length hle, List.take_append_drop]
  refine ⟨?_, ?_, ?_, ?_⟩
  · simp only [List.flatMap_cons, Piece.old, h.old, hafter]
    conv_rhs => rw [hd, List.append_assoc, List.drop_append_of_le_length hle]
  · simp only [List.flatMap_cons, Piece.new, h.new, rewriteFrom, hregion, List.append_assoc]
  · rw [filterMap_section?_plain, filterMap_section?_placed, h.sections, List.filter_cons,
      if_pos (by simp [isIn, hregion])]
  · intro left name' report' inside' right hsplit
    rcases List.cons_eq_append_iff.1 hsplit with ⟨-, hplain⟩ | ⟨left₁, rfl, hrest⟩
    · cases hplain
    rcases List.cons_eq_append_iff.1 hrest with ⟨rfl, hplaced⟩ | ⟨left₂, rfl, hps⟩
    · cases hplaced
      simp only [List.flatMap_cons, List.flatMap_nil, Piece.old, List.append_nil, hbefore, h.old,
        hafter]
      exact hregion
    · rw [h.regions left₂ name' report' inside' right hps, htake]
      simp only [List.flatMap_cons, Piece.old]
      rw [← List.append_assoc (d.take place), hbefore]
      simp only [List.append_assoc]

end Pieces

/-- Sections in the order of a document without overlaps, which start at a place or after it, cut
the rest of the document into pieces. -/
theorem exists_pieces {d : Text} {l : List (String × Text)} {place : Nat}
    (hplace : ∀ e ∈ l, ∀ x y, region? d e.1 = some (x, y) → place ≤ x.length)
    (hl : l.Pairwise fun e e' => ∀ x y x' y', region? d e.1 = some (x, y) →
      region? d e'.1 = some (x', y') → d.length - y.length ≤ x'.length) :
    ∃ ps, Pieces d place l ps := by
  induction l generalizing place with
  | nil => exact ⟨_, .nil d place⟩
  | cons e l ih =>
    obtain ⟨hfirst, hrest⟩ := List.pairwise_cons.1 hl
    cases hregion : region? d e.1 with
    | none =>
      obtain ⟨ps, h⟩ := ih (fun e he => hplace e (List.mem_cons_of_mem _ he)) hrest
      exact ⟨ps, h.cons_missing hregion⟩
    | some r =>
      obtain ⟨before, after⟩ := r
      obtain ⟨inside, hd⟩ := exists_inside hregion
      obtain ⟨ps, h⟩ := ih (fun e' he' x y => hfirst e' he' before after x y hregion) hrest
      have hle := hplace e List.mem_cons_self before after hregion
      exact ⟨_, h.cons_found hle (by simpa using hd) hregion⟩

/-- The regions of sections that are apart come one after another. -/
theorem pairwise_sorted {d : Text} {l : List (String × Text)}
    (h : l.Pairwise fun e e' => Apart d e.1 e'.1) :
    (l.mergeSort fun e e' => startOf d e.1 ≤ startOf d e'.1).Pairwise fun e e' =>
      ∀ x y x' y', region? d e.1 = some (x, y) → region? d e'.1 = some (x', y') →
        d.length - y.length ≤ x'.length := by
  have hsymm : ∀ {e e' : String × Text}, Apart d e.1 e'.1 → Apart d e'.1 e.1 :=
    fun h r hr r' hr' => (h r' hr' r hr).symm
  have hapart := (List.mergeSort_perm l fun e e' => startOf d e.1 ≤ startOf d e'.1).symm.pairwise
    h hsymm
  let before : String × Text → String × Text → Bool := fun e e' => startOf d e.1 ≤ startOf d e'.1
  have htrans : ∀ a b c, before a b = true → before b c = true → before a c = true := by
    intro a b c hab hbc
    simp only [before, decide_eq_true_eq] at *
    exact hab.trans hbc
  have htotal : ∀ a b, (before a b || before b a) = true := by
    intro a b
    simp only [before, Bool.or_eq_true, decide_eq_true_eq]
    exact Nat.le_total _ _
  have hstart := List.pairwise_mergeSort htrans htotal l
  refine (hapart.and hstart).imp fun {e e'} h x y x' y' hr hr' => ?_
  obtain ⟨h, hle⟩ := h
  have hor : d.length - y.length ≤ x'.length ∨ d.length - y'.length ≤ x.length :=
    h (x, y) hr (x', y') hr'
  refine hor.resolve_right fun hlt => ?_
  -- The second region would end before the first one starts, and start after it.
  obtain ⟨inside, hd⟩ := exists_inside hr'
  have hpos := length_beginMarker_pos e'.1
  have hlen := congrArg List.length hd
  simp only [before, startOf, hr, hr', Option.map_some, Option.getD_some, decide_eq_true_eq] at hle
  simp only [List.length_append] at hlen
  omega

/-! ## Injections one after another -/

/-- Puts reports into a document one after another, as a run with several sections does. -/
def injectAll (d : Text) (sections : List (String × Text)) : Run Text :=
  sections.foldlM (fun d e => Generate.intoSection e.1 d e.2) d

def missingNote (name : String) : Level × String :=
  (.warning, (Failure.noMarkers (nameOf name)).message)

open Run in
/-- Injections write all pieces of a document anew, and each missing section is noted. -/
theorem Layout.exec_injectAll {d : Text} {l : List (String × Text)} {ps : List Piece}
    (hl : Layout d l ps) (hc : Clean l) (w : World) (m : Machine) :
    (injectAll d l).exec w m = (.ok (ps.flatMap new),
      { m with notes :=
          ((l.filter fun e => !isIn d e.1).map fun e => missingNote e.1).reverse ++ m.notes }) := by
  induction l generalizing d ps m with
  | nil =>
    rw [flatMap_new_eq_old hl.sections.eq_nil, hl.text]
    rfl
  | cons e l ih =>
    rw [injectAll, List.foldlM_cons, exec_bind]
    cases hin : isIn d e.1 with
    | true =>
      obtain ⟨d', ps', hinject, hl', hnew, hkept⟩ := hl.inject hc hin
      have hstep : (Generate.intoSection e.1 d e.2).exec w m = (.ok d', m) := by
        rw [Generate.intoSection, hinject]
        rfl
      rw [hstep]
      dsimp only
      rw [← injectAll, ih hl' hc.of_cons m, hnew, List.filter_cons, if_neg (by simp [hin]),
        List.filter_congr fun e' he' => by rw [hkept e' he']]
    | false =>
      have hstep : (Generate.intoSection e.1 d e.2).exec w m =
          (.ok d, { m with notes := missingNote e.1 :: m.notes }) := by
        rw [Generate.intoSection, Section.inject, not_isIn_iff.1 hin]
        rfl
      have hl' : Layout d l ps := by
        refine ⟨hl.text, ?_, hl.regions⟩
        have hsections := hl.sections
        rwa [List.filter_cons, if_neg (by simp [hin])] at hsections
      rw [hstep]
      dsimp only
      rw [← injectAll, ih hl' hc.of_cons, List.filter_cons, if_pos (by simp [hin])]
      simp

/-- Reports for several sections do not disturb each other. Let the names of the sections hold no
line break, let no report hold a marker of one of the sections, and let the regions that the
document has for them not overlap. Then the reports can be put in in any order: each found region
keeps its markers and has its report between them, all else in the document stays, and exactly the
sections that the document does not have are missing. -/
theorem inject_any_order {d : Text} {sections : List (String × Text)} (hc : Clean sections)
    (ha : sections.Pairwise fun e e' => Apart d e.1 e'.1) {order : List (String × Text)}
    (hp : order.Perm sections) (w : World) (m : Machine) :
    (injectAll d order).exec w m = (.ok (rewrite d sections),
      { m with notes :=
          ((order.filter fun e => !isIn d e.1).map fun e => missingNote e.1).reverse ++
            m.notes }) := by
  obtain ⟨ps, h⟩ := exists_pieces (fun _ _ _ _ _ => Nat.zero_le _) (pairwise_sorted ha)
  have hl : Layout d order ps := by
    refine ⟨h.old, ?_, h.regions⟩
    rw [h.sections]
    exact ((List.mergeSort_perm _ _).trans hp.symm).filter _
  rw [hl.exec_injectAll (hc.perm hp), h.new]
  rfl

/-- Three sections, one of which the document does not have, in another order. -/
theorem inject_any_order_of_three :
    let d := Text.ofString ("a\n<!-- BEGIN: main -->\n<!-- END: main -->\nb <!-- BEGIN: cmp -->x" ++
      "<!-- END: cmp -->\n<!-- END: lost -->\n<!-- BEGIN: lost -->")
    let sections : List (String × Text) :=
      [("main", "img\n"), ("lost", "gone"), ("cmp", "\nBEGIN: main -->\n")]
    let order : List (String × Text) :=
      [("cmp", "\nBEGIN: main -->\n"), ("main", "img\n"), ("lost", "gone")]
    let w : World := {
      respond := fun _ _ => .fails (.missing "")
      find? := fun _ => none
      environment := []
      directory := "/"
      now := fun _ => ⟨⟨2024, 1, 1⟩, 0, 0, 0, 0, none⟩ }
    let m : Machine := { files := ⟨[]⟩ }
    Clean sections ∧ (sections.Pairwise fun e e' => Apart d e.1 e'.1) ∧ order.Perm sections ∧
    (injectAll d order).exec w m = (.ok (rewrite d sections),
      { m with notes := [(.warning, (Failure.noMarkers "lost").message)] }) ∧
    rewrite d sections = Text.ofString ("a\n<!-- BEGIN: main -->\nimg\n<!-- END: main -->\nb " ++
      "<!-- BEGIN: cmp -->\nBEGIN: main -->\n<!-- END: cmp -->\n<!-- END: lost -->\n" ++
      "<!-- BEGIN: lost -->") := by
  intro d sections order w m
  have hc : Clean sections := ⟨by decide, by decide⟩
  have ha : sections.Pairwise fun e e' => Apart d e.1 e'.1 := by decide +kernel
  have hp : order.Perm sections := by decide
  have hother := inject_any_order hc ha hp w m
  have hnotes : (order.filter fun e => !isIn d e.1).map (fun e => missingNote e.1) =
      [missingNote "lost"] := by
    decide +kernel
  rw [hnotes] at hother
  refine ⟨hc, ha, hp, hother, ?_⟩
  have hrun : ((injectAll d order).exec w m).1.toOption = some (Text.ofString
      ("a\n<!-- BEGIN: main -->\nimg\n<!-- END: main -->\nb " ++
      "<!-- BEGIN: cmp -->\nBEGIN: main -->\n<!-- END: cmp -->\n<!-- END: lost -->\n" ++
      "<!-- BEGIN: lost -->")) := by
    decide +kernel
  rw [hother] at hrun
  exact Option.some.inj hrun

end Section
end ContainerDocs

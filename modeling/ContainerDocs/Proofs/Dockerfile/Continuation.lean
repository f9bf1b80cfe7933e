import ContainerDocs.Proofs.Dockerfile.Alike
import ContainerDocs.Proofs.Dockerfile.Escape

/-!
# Instructions over several lines

An instruction may be broken into lines at its spaces: each line but the last one ends in the escape
character, and blank lines and comments may stand between them. The broken instruction is read as
the one on a single line.

## Main definitions

* `Reader.IsPiece` — a text that may have a line of an instruction for itself.
* `Reader.Piece` — a piece of an instruction with the lines up to the next piece.
* `Reader.brokenLines`, `Reader.unbroken` — an instruction in pieces and on one line.

## Main statements

* `Reader.joinPieces_unbroken` — pieces are joined to what they were broken from.
* `Dockerfile.parse_broken` — breaking an instruction only moves what stands below it.
-/

namespace ContainerDocs
namespace Reader

/-! ## Pieces of an instruction -/

/-- A text that may have a line of an instruction for itself: it is not empty, has no blanks around
it and is no comment. -/
structure IsPiece (p : Line) : Prop where
  ne_nil : p ≠ []
  stripped : Blank.strip p = p
  not_comment : p.head? ≠ some '#'

/-- A piece of an instruction, the blanks behind the escape in its line and the lines up to the next
piece, which are blank or comments. -/
structure Piece where
  text : Line
  trailing : Line
  gap : List Line
  isPiece : IsPiece text
  blank : ∀ c ∈ trailing, Blank.isBlank c = true
  skipped : ∀ line ∈ gap, (isBlankLine line || isComment line) = true

def Piece.line (escape : Char) (p : Piece) : Line := p.text ++ ' ' :: escape :: p.trailing

def Piece.lines (escape : Char) (p : Piece) : List Line := p.line escape :: p.gap

def brokenLines (escape : Char) (pieces : List Piece) (last : Line) : List Line :=
  pieces.flatMap (Piece.lines escape) ++ [last]

def unbroken (pieces : List Piece) (last : Line) : Line :=
  List.intercalate [' '] (pieces.map Piece.text ++ [last])

theorem unbroken_cons (p : Piece) (pieces : List Piece) (last : Line) :
    unbroken (p :: pieces) last = p.text ++ ' ' :: unbroken pieces last := by
  rw [unbroken, List.map_cons, List.cons_append]
  cases pieces with
  | nil => simp [unbroken, List.intercalate_cons_cons, List.intercalate_singleton]
  | cons q pieces => simp [unbroken, List.intercalate_cons_cons]

theorem unbroken_nil (last : Line) : unbroken [] last = last := by
  rw [unbroken, List.map_nil, List.nil_append, List.intercalate_singleton]

theorem unbroken_ne_nil (pieces : List Piece) {last : Line} (h : last ≠ []) :
    unbroken pieces last ≠ [] := by
  cases pieces with
  | nil => rwa [unbroken_nil]
  | cons p pieces => simp [unbroken_cons]

theorem getLast?_unbroken (pieces : List Piece) {last : Line} (h : last ≠ []) :
    (unbroken pieces last).getLast? = last.getLast? := by
  induction pieces with
  | nil => rw [unbroken_nil]
  | cons p pieces ih =>
    rw [unbroken_cons, List.append_cons,
      List.getLast?_append_of_ne_nil _ (unbroken_ne_nil pieces h), ih]

theorem dropLast_unbroken (pieces : List Piece) {last : Line} (h : last ≠ []) :
    (unbroken pieces last).dropLast = unbroken pieces last.dropLast := by
  induction pieces with
  | nil => rw [unbroken_nil, unbroken_nil]
  | cons p pieces ih =>
    rw [unbroken_cons, unbroken_cons, List.append_cons,
      List.dropLast_append_of_ne_nil (unbroken_ne_nil pieces h), ih, ← List.append_cons]

namespace IsPiece

variable {p q : Line}

theorem not_blank_head (h : IsPiece p) : ∀ c ∈ p.head?, Blank.isBlank c = false := by
  rw [← h.stripped]
  exact Blank.not_head?_trim

theorem not_blank_last (h : IsPiece p) : ∀ c ∈ p.getLast?, Blank.isBlank c = false := by
  rw [← h.stripped]
  exact Blank.not_getLast?_trimRight

theorem head?_append (h : IsPiece p) (rest : Line) : (p ++ rest).head? = p.head? :=
  List.head?_append_of_ne_nil _ h.ne_nil

/-- Two pieces around a text are a piece. -/
theorem append (hp : IsPiece p) (mid : Line) (hq : IsPiece q) : IsPiece (p ++ (mid ++ q)) where
  ne_nil := by simp [hp.ne_nil]
  stripped := by
    refine Blank.trim_eq_self ?_ ?_
    · rw [hp.head?_append]
      exact hp.not_blank_head
    · rw [← List.append_assoc, List.getLast?_append_of_ne_nil _ hq.ne_nil]
      exact hq.not_blank_last
  not_comment := by
    rw [hp.head?_append]
    exact hp.not_comment

theorem unbroken {last : Line} (h : IsPiece last) (pieces : List Piece) :
    IsPiece (unbroken pieces last) := by
  induction pieces with
  | nil => rwa [unbroken_nil]
  | cons p pieces ih =>
    rw [unbroken_cons]
    exact p.isPiece.append [' '] ih

/-- A line that starts with a piece, and holds more or not, is a content line. -/
theorem isContent (h : IsPiece p) (rest : Line) :
    isBlankLine (p ++ rest) = false ∧ isComment (p ++ rest) = false := by
  obtain ⟨c, more, hp⟩ := List.exists_cons_of_ne_nil h.ne_nil
  have hhead : (p ++ rest).head? = some c := by rw [h.head?_append, hp]; rfl
  have hstrip : (Blank.strip (p ++ rest)).head? = some c := by
    rw [Blank.strip, Blank.trim,
      Blank.dropWhile_eq_self (by rw [h.head?_append]; exact h.not_blank_head),
      Blank.head?_trimRight (by rw [h.head?_append]; exact h.not_blank_head), hhead]
  constructor
  · rw [isBlankLine, List.isEmpty_eq_false_iff_exists_mem]
    exact ⟨c, List.mem_of_mem_head? hstrip⟩
  · have hc : c ≠ '#' := by
      rintro rfl
      exact h.not_comment (by rw [hp]; rfl)
    rw [isComment, hstrip]
    simpa using hc

end IsPiece

/-! ## Joining pieces -/

theorem intercalate_merge (u v : List Line) (a b : Line) :
    List.intercalate [' '] (u ++ (a ++ ' ' :: b) :: v) =
      List.intercalate [' '] (u ++ a :: b :: v) := by
  induction u with
  | nil => cases v <;> simp [List.intercalate_singleton, List.intercalate_cons_cons]
  | cons w u ih =>
    rw [List.cons_append, List.cons_append]
    cases u with
    | nil => simpa [List.intercalate_cons_cons] using ih
    | cons x u => simpa [List.intercalate_cons_cons] using ih

/-- Two neighbours are joined as one text with a space between them. -/
theorem joinPieces_merge (before after : List Line) {a b : Line} (ha : IsPiece a)
    (hb : ∀ c ∈ b.head?, Blank.isBlank c = false) :
    joinPieces (before ++ (a ++ [' ']) :: b :: after) =
      joinPieces (before ++ (a ++ ' ' :: b) :: after) := by
  have hspace : ∀ c ∈ [' '], Blank.isBlank c = true := by
    rw [List.forall_mem_singleton]
    decide
  have ha' : Blank.strip (a ++ [' ']) = a := by
    rw [Blank.strip, Blank.trim_append_right hspace]
    exact ha.stripped
  have hne : a ≠ [] := ha.ne_nil
  by_cases hnil : Blank.strip b = []
  · have hab : Blank.strip (a ++ ' ' :: b) = a := by
      have hblank : ∀ c ∈ ' ' :: b, Blank.isBlank c = true := by
        rw [List.forall_mem_cons]
        exact ⟨by decide, Blank.trim_eq_nil_iff.1 hnil⟩
      rw [Blank.strip, Blank.trim_append_right hblank]
      exact ha.stripped
    simp [joinPieces, ha', hab, hnil, hne]
  · have hab : Blank.strip (a ++ ' ' :: b) = a ++ ' ' :: Blank.strip b := by
      have hhead : ∀ c ∈ (a ++ ' ' :: b).head?, Blank.isBlank c = false := by
        rw [ha.head?_append]
        exact ha.not_blank_head
      have hb' : Blank.strip b = Blank.trimRight Blank.isBlank b := by
        rw [Blank.strip, Blank.trim, Blank.dropWhile_eq_self hb]
      rw [hb'] at hnil ⊢
      rw [Blank.strip, Blank.trim, Blank.dropWhile_eq_self hhead, List.append_cons,
        Blank.trimRight_append_of_ne_nil hnil, ← List.append_cons]
    simp [joinPieces, ha', hab, hnil, hne, intercalate_merge]

/-- Pieces are joined to what they were broken from. The last one may have lost its end. -/
theorem joinPieces_unbroken (before after : List Line) (pieces : List Piece) {last : Line}
    (hl : ∀ c ∈ last.head?, Blank.isBlank c = false) :
    joinPieces (before ++ pieces.map (·.text ++ [' ']) ++ last :: after) =
      joinPieces (before ++ unbroken pieces last :: after) := by
  induction pieces generalizing before with
  | nil => simp [unbroken_nil]
  | cons p pieces ih =>
    have hhead : ∀ c ∈ (unbroken pieces last).head?, Blank.isBlank c = false := by
      cases pieces with
      | nil => rwa [unbroken_nil]
      | cons q pieces =>
        rw [unbroken_cons, q.isPiece.head?_append]
        exact q.isPiece.not_blank_head
    calc joinPieces (before ++ (p :: pieces).map (·.text ++ [' ']) ++ last :: after)
        = joinPieces (before ++ [p.text ++ [' ']] ++ pieces.map (·.text ++ [' ']) ++
            last :: after) := by simp
      _ = joinPieces (before ++ [p.text ++ [' ']] ++ unbroken pieces last :: after) := ih _
      _ = joinPieces (before ++ (p.text ++ [' ']) :: unbroken pieces last :: after) := by simp
      _ = joinPieces (before ++ (p.text ++ ' ' :: unbroken pieces last) :: after) :=
        joinPieces_merge before after p.isPiece hhead
      _ = joinPieces (before ++ unbroken (p :: pieces) last :: after) := by rw [unbroken_cons]

/-! ## Reading the lines of an instruction -/

section Steps

variable {first : Nat} {opening : Line} {acc : List Line}

/-- The line of a piece adds its text, and the instruction continues. -/
theorem extend_piece (st : State) (he : Blank.isBlank st.escape = false) (first : Nat)
    (opening : Line) (acc : List Line) (p : Piece) :
    extend st first opening acc (p.line st.escape) =
      ({ st with mode := .continued first opening (acc ++ [p.text ++ [' ']]) }, []) := by
  have hright : Blank.stripRight (p.line st.escape) = p.text ++ [' ', st.escape] := by
    have hline : p.line st.escape = p.text ++ [' ', st.escape] ++ p.trailing := by
      simp [Piece.line]
    rw [hline, Blank.stripRight, Blank.trimRight_append p.blank]
    exact Blank.trimRight_eq_self (by simpa using he)
  have hdrop : (p.text ++ [' ', st.escape]).dropLast = p.text ++ [' '] := by
    rw [List.append_cons, List.dropLast_concat]
  rw [extend, hright, if_pos (by simp), hdrop]

/-- The lines between two pieces are passed over. -/
theorem after_gap (st : State) (hm : st.mode = .continued first opening acc) {gap : List Line}
    (hg : ∀ line ∈ gap, (isBlankLine line || isComment line) = true) :
    after st gap = { st with line := st.line + gap.length } ∧ found st gap = [] := by
  induction gap generalizing st with
  | nil => exact ⟨rfl, rfl⟩
  | cons line gap ih =>
    have hstep := step_passedOver hm (hg line List.mem_cons_self)
    obtain ⟨hafter, hfound⟩ := ih { st with line := st.line + 1 } hm
      fun l hl => hg l (List.mem_cons_of_mem _ hl)
    rw [after_cons, found, hstep]
    exact ⟨by rw [hafter, List.length_cons, Nat.add_right_comm, Nat.add_assoc], hfound⟩

/-- The lines of the pieces leave the reader in the instruction with their texts. -/
theorem after_pieces (st : State) (hm : st.mode = .continued first opening acc)
    (he : Blank.isBlank st.escape = false) (pieces : List Piece) :
    after st (pieces.flatMap (Piece.lines st.escape)) =
        { st with
          line := st.line + (pieces.flatMap (Piece.lines st.escape)).length
          mode := .continued first opening (acc ++ pieces.map (·.text ++ [' '])) } ∧
      found st (pieces.flatMap (Piece.lines st.escape)) = [] := by
  induction pieces generalizing st acc with
  | nil =>
    rw [List.flatMap_nil, List.map_nil, List.append_nil, ← hm]
    exact ⟨rfl, rfl⟩
  | cons p pieces ih =>
    have hcontent := p.isPiece.isContent (' ' :: st.escape :: p.trailing)
    have hstep : step st (p.line st.escape) = ({ st with
        line := st.line + 1
        mode := .continued first opening (acc ++ [p.text ++ [' ']]) }, []) := by
      rw [step_continuing hm (by rw [Piece.line, hcontent.1, hcontent.2]; rfl)]
      exact extend_piece { st with line := st.line + 1 } he first opening acc p
    obtain ⟨hgap, hgap'⟩ := after_gap { st with
        line := st.line + 1
        mode := .continued first opening (acc ++ [p.text ++ [' ']]) } rfl p.skipped
    obtain ⟨hrest, hrest'⟩ := ih { st with
        line := st.line + 1 + p.gap.length
        mode := .continued first opening (acc ++ [p.text ++ [' ']]) } rfl he
    rw [List.flatMap_cons, Piece.lines, List.cons_append, after_cons, found, hstep, after_append,
      found_append, hgap, hgap']
    refine ⟨?_, by rw [hrest']; rfl⟩
    rw [hrest]
    simp [Nat.add_assoc, Nat.add_comm, Nat.add_left_comm]

/-- The first piece opens the instruction, and the lines of the others leave the reader in it. -/
theorem after_opening_pieces (st : State) (hm : st.mode = .ready)
    (he : Blank.isBlank st.escape = false) (p : Piece) (pieces : List Piece) :
    after st ((p :: pieces).flatMap (Piece.lines st.escape)) =
        { st with
          line := st.line + ((p :: pieces).flatMap (Piece.lines st.escape)).length
          preamble := false
          mode := .continued (st.line + 1) (p.line st.escape)
            ((p :: pieces).map (·.text ++ [' '])) } ∧
      found st ((p :: pieces).flatMap (Piece.lines st.escape)) = [] := by
  have hcontent := p.isPiece.isContent (' ' :: st.escape :: p.trailing)
  have hstep : step st (p.line st.escape) = ({ st with
      line := st.line + 1
      preamble := false
      mode := .continued (st.line + 1) (p.line st.escape) [p.text ++ [' ']] }, []) := by
    rw [step_opening hm (by rw [Piece.line, hcontent.1]) (by rw [Piece.line, hcontent.2])]
    exact extend_piece { st with line := st.line + 1, preamble := false } he _ _ [] p
  obtain ⟨hgap, hgap'⟩ := after_gap { st with
      line := st.line + 1
      preamble := false
      mode := .continued (st.line + 1) (p.line st.escape) [p.text ++ [' ']] } rfl p.skipped
  obtain ⟨hrest, hrest'⟩ := after_pieces { st with
      line := st.line + 1 + p.gap.length
      preamble := false
      mode := .continued (st.line + 1) (p.line st.escape) [p.text ++ [' ']] } rfl he pieces
  rw [List.flatMap_cons, Piece.lines, List.cons_append, after_cons, found, hstep, after_append,
    found_append, hgap, hgap']
  refine ⟨?_, by rw [hrest']; rfl⟩
  rw [hrest]
  simp [Nat.add_assoc, Nat.add_comm, Nat.add_left_comm]

/-- The last piece does after the others what the instruction does on one line. -/
theorem extend_unbroken_alike {edge lines stages : Nat} {st st' : State}
    (h : Alike edge lines stages st st') (first : Nat) (opening opening' : Line)
    (pieces : List Piece) {last : Line} (hlast : IsPiece last) :
    AlikeAfter edge lines stages st.stages (extend st first opening [] (unbroken pieces last))
      (extend st' (moved edge lines first) opening' (pieces.map (·.text ++ [' '])) last) := by
  have hwhole := hlast.unbroken pieces
  have hright : Blank.stripRight last = last := Blank.trimRight_eq_self hlast.not_blank_last
  have hright' : Blank.stripRight (unbroken pieces last) = unbroken pieces last :=
    Blank.trimRight_eq_self hwhole.not_blank_last
  have hjoin : ∀ last' : Line, (∀ c ∈ last'.head?, Blank.isBlank c = false) → ∀ more,
      joinPieces (pieces.map (·.text ++ [' ']) ++ [last'] ++ more) =
        joinPieces ([] ++ [unbroken pieces last'] ++ more) := by
    intro last' hhead more
    have hjoined := joinPieces_unbroken [] more pieces hhead
    rwa [List.nil_append, List.append_cons] at hjoined
  refine extend_alike_of_joinPieces h first opening opening' ?_ ?_ ?_
  · rw [hright, hright', getLast?_unbroken pieces hlast.ne_nil]
  · rw [hright, hright', dropLast_unbroken pieces hlast.ne_nil]
    refine hjoin _ fun c hc => hlast.not_blank_head c ?_
    obtain ⟨tail, htail⟩ := List.dropLast_prefix last
    have hne : last.dropLast ≠ [] := by
      rintro hnil
      simp [hnil] at hc
    rwa [← htail, List.head?_append_of_ne_nil _ hne]
  · rw [hright, hright']
    simpa using hjoin last hlast.not_blank_head []

theorem extend_mode (st : State) (mode : Mode) (first : Nat) (opening : Line) (acc : List Line)
    (line : Line) :
    extend { st with mode := mode } first opening acc line = extend st first opening acc line := rfl

/-- The lines of an instruction in pieces end with the last piece after the texts of the others. -/
theorem after_brokenLines (st : State) (hm : st.mode = .ready)
    (he : Blank.isBlank st.escape = false) (pieces : List Piece) {last : Line}
    (hlast : IsPiece last) :
    ∃ opening, (after st (brokenLines st.escape pieces last),
        found st (brokenLines st.escape pieces last)) =
      extend { st with
          line := st.line + 1 + (pieces.flatMap (Piece.lines st.escape)).length
          preamble := false } (st.line + 1) opening (pieces.map (·.text ++ [' '])) last := by
  have hcontent := hlast.isContent []
  rw [List.append_nil] at hcontent
  cases pieces with
  | nil =>
    exact ⟨last, (after_found_singleton st last).trans (step_opening hm hcontent.1 hcontent.2)⟩
  | cons p pieces =>
    obtain ⟨hafter, hfound⟩ := after_opening_pieces st hm he p pieces
    refine ⟨p.line st.escape, ?_⟩
    rw [brokenLines, after_append, found_append, hfound, hafter, List.nil_append,
      after_found_singleton, step_continuing rfl (by rw [hcontent.1, hcontent.2]; rfl)]
    rw [← extend_mode _ st.mode, Nat.add_right_comm]

/-- A reader is left alike by an instruction in pieces and on one line, and finds the same. -/
theorem brokenLines_alike (st : State) (hm : st.mode = .ready)
    (he : Blank.isBlank st.escape = false) (pieces : List Piece) {last : Line}
    (hlast : IsPiece last) :
    AlikeAfter (st.line + 1) (pieces.flatMap (Piece.lines st.escape)).length 0 st.stages
      (after st [unbroken pieces last], found st [unbroken pieces last])
      (after st (brokenLines st.escape pieces last),
        found st (brokenLines st.escape pieces last)) := by
  have hcontent := (hlast.unbroken pieces).isContent []
  rw [List.append_nil] at hcontent
  obtain ⟨opening, hbroken⟩ := after_brokenLines st hm he pieces hlast
  have hmode : Mode.Alike (st.line + 1) (pieces.flatMap (Piece.lines st.escape)).length st.mode
      st.mode := by
    rw [hm]
    exact .ready
  have halike : Alike (st.line + 1) (pieces.flatMap (Piece.lines st.escape)).length 0
      { st with line := st.line + 1, preamble := false }
      { st with
        line := st.line + 1 + (pieces.flatMap (Piece.lines st.escape)).length
        preamble := false } := ⟨rfl, rfl, rfl, rfl, rfl, Nat.le_refl _, hmode⟩
  have hextend := extend_unbroken_alike halike (st.line + 1) (unbroken pieces last) opening pieces
    hlast
  rw [moved_of_le (Nat.le_refl _)] at hextend
  rw [after_found_singleton, step_opening hm hcontent.1 hcontent.2, hbroken]
  exact hextend

end Steps

end Reader

namespace Dockerfile

open Reader

/-- An instruction may be broken into lines at its spaces, with blank lines and comments between
them. Nothing changes but the numbers of the lines below it. -/
theorem parse_broken (content content' : String) (before rest : List Line) (pieces : List Piece)
    (last : Line) (hlast : IsPiece last) (hvisited : (after {} before).mode = .ready)
    (hlines : Lines.split content.toList = before ++ unbroken pieces last :: rest)
    (hlines' : Lines.split content'.toList =
      before ++ (brokenLines (after {} before).escape pieces last ++ rest)) :
    IsEscapeChar (after {} before).escape ∧
      (parse content').instructions = (parse content).instructions.map
        (movedBelow (before.length + 1)
          (pieces.flatMap (Piece.lines (after {} before).escape)).length) ∧
      (parse content').stages = (parse content).stages := by
  have hescape : IsEscapeChar (after {} before).escape := isEscapeChar_after (.inl rfl) before
  have hline : (after {} before).line = before.length :=
    (invariant_after invariant_start before).line
  have halike : AlikeAfter (before.length + [unbroken pieces last].length)
      (pieces.flatMap (Piece.lines (after {} before).escape)).length 0 (after {} before).stages
      (after (after {} before) [unbroken pieces last],
        found (after {} before) [unbroken pieces last])
      (after (after {} before) (brokenLines (after {} before).escape pieces last),
        found (after {} before) (brokenLines (after {} before).escape pieces last)) := by
    rw [List.length_singleton, ← hline]
    exact brokenLines_alike _ hvisited hescape.not_isBlank pieces hlast
  rw [parse, parse, hlines, hlines']
  exact ⟨hescape, ofLines_exchange hvisited halike⟩

/-- An instruction in three pieces, the last of which itself continues. -/
theorem parse_broken_of_three :
    let content := "# escape=`\n# note\nENV A='x y' `\nB=2\nARG C\n"
    let content' := "# escape=`\n# note\nENV `\t\n\n# why\nA='x `\ny' `\nB=2\nARG C\n"
    let before : List Line := ["# escape=`".toList, "# note".toList]
    let rest : List Line := ["B=2".toList, "ARG C".toList]
    let pieces : List Piece :=
      [{ text := "ENV".toList
         trailing := ['\t']
         gap := [[], "# why".toList]
         isPiece := ⟨by decide, by decide, by decide⟩
         blank := List.forall_mem_singleton.2 rfl
         skipped := by decide },
       { text := "A='x".toList
         trailing := []
         gap := []
         isPiece := ⟨by decide, by decide, by decide⟩
         blank := List.forall_mem_nil _
         skipped := by decide }]
    let last : Line := "y' `".toList
    IsPiece last ∧ (after {} before).mode = .ready ∧
      Lines.split content.toList = before ++ unbroken pieces last :: rest ∧
      Lines.split content'.toList =
        before ++ (brokenLines (after {} before).escape pieces last ++ rest) ∧
      IsEscapeChar (after {} before).escape ∧
      (parse content').instructions = (parse content).instructions.map (movedBelow 3 4) ∧
      (parse content').stages = (parse content).stages := by
  intro content content' before rest pieces last
  have hlast : IsPiece last := ⟨by decide, by decide, by decide⟩
  have hvisited : (after {} before).mode = .ready := by decide
  have hlines : Lines.split content.toList = before ++ unbroken pieces last :: rest := by decide
  have hlines' : Lines.split content'.toList =
      before ++ (brokenLines (after {} before).escape pieces last ++ rest) := by decide
  have hlength : (pieces.flatMap (Piece.lines (after {} before).escape)).length = 4 := by decide
  have hbroken :=
    parse_broken content content' before rest pieces last hlast hvisited hlines hlines'
  rw [hlength] at hbroken
  exact ⟨hlast, hvisited, hlines, hlines', hbroken⟩

end Dockerfile
end ContainerDocs

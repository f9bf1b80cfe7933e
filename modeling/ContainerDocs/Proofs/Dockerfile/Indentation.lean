import ContainerDocs.Proofs.Dockerfile.Alike
import ContainerDocs.Proofs.Text.Indentation

/-!
# Indentation of a Dockerfile

The reader of a Dockerfile sees its lines without the blanks around them: what it finds in a list of
lines, it finds in the stripped lines. So neither indentation nor the style of the line ends means
anything.

## Main definitions

* `Reader.State.stripped` — the reader after the stripped lines.

## Main statements

* `Reader.step_stripped` — what a line does, its stripped form does.
* `Reader.run_congr` — lines that strip to the same bring the same.
* `Dockerfile.parse_indented` — blanks around lines and the style of line ends mean nothing.
-/

namespace ContainerDocs
namespace Reader

open Blank

/-! ## Stripped lines -/

def Mode.stripped : Mode → Mode
  | .ready => .ready
  | .continued first opening pieces => .continued first (strip opening) (pieces.map strip)
  | .hereDocument terminator => .hereDocument terminator

def State.stripped (st : State) : State := { st with mode := st.mode.stripped }

@[simp] theorem Mode.stripped_stripped (mode : Mode) : mode.stripped.stripped = mode.stripped := by
  cases mode <;> simp [stripped]

@[simp] theorem isBlankLine_strip (line : Line) : isBlankLine (strip line) = isBlankLine line :=
  isBlankLine_congr strip_strip

@[simp] theorem isComment_strip (line : Line) : isComment (strip line) = isComment line :=
  isComment_congr strip_strip

/-- What a line does, seen without the blanks around lines. -/
def seen (r : State × List Event) : State × List Event := (r.1.stripped, r.2)

section Steps

variable {st : State} {line : Line}

@[simp] theorem stripped_escape (st : State) : st.stripped.escape = st.escape := rfl

@[simp] theorem stripped_mode (st : State) : st.stripped.mode = st.mode.stripped := rfl

theorem complete_stripped (st : State) (first : Nat) (opening : Line) {pieces pieces' : List Line}
    (hp : pieces'.map strip = pieces.map strip) :
    complete st.stripped first (strip opening) pieces' = complete st first opening pieces := by
  rw [complete, joinPieces_congr hp, strip_strip, complete]
  rfl

theorem extend_stripped (st : State) (first : Nat) (opening : Line) {pieces pieces' : List Line}
    (hp : pieces'.map strip = pieces.map strip) (line : Line) :
    seen (extend st.stripped first (strip opening) pieces' (strip line)) =
      seen (extend st first opening pieces line) := by
  have hright : stripRight (strip line) = strip line := trimRight_eq_self not_getLast?_trimRight
  rw [extend, extend, hright, getLast?_stripRight, stripped_escape]
  by_cases hc : (strip line).getLast? = some st.escape
  · rw [if_pos hc, if_pos hc]
    simp [seen, State.stripped, Mode.stripped, hp, strip_dropLast_stripRight]
  · rw [if_neg hc, if_neg hc]
    exact congrArg seen (complete_stripped st first opening (by simp [hp]))

/-- A line between instructions. -/
theorem ready_stripped (hmode : st.mode = .ready) (line : Line) :
    seen (step st.stripped (strip line)) = seen (step st line) := by
  have hmode' : st.stripped.mode = .ready := by rw [stripped_mode, hmode, Mode.stripped]
  by_cases hblank : isBlankLine line = true
  · rw [step_blank hmode hblank, step_blank hmode' (by simpa using hblank)]
    simp [seen, State.stripped]
  by_cases hcomment : isComment line = true
  · have hcomment' : isComment (strip line) = true := by simpa using hcomment
    by_cases hd : st.preamble = true ∧ (directive? (strip line)).isSome = true
    · obtain ⟨hp, hd⟩ := hd
      obtain ⟨⟨name, value⟩, hv⟩ := Option.isSome_iff_exists.1 hd
      rw [step_directive hmode hcomment hp hv,
        step_directive hmode' hcomment' hp (strip_strip.symm ▸ hv)]
      simp [seen, State.stripped]
    · have hv : st.preamble = true → directive? (strip line) = none := by
        intro hp
        simpa [hp] using hd
      rw [step_comment hmode hcomment hv,
        step_comment hmode' hcomment' fun hp => strip_strip.symm ▸ hv hp]
      simp [seen, State.stripped]
  · rw [step_opening hmode (by simpa using hblank) (by simpa using hcomment),
      step_opening hmode' (by simpa using hblank) (by simpa using hcomment)]
    exact extend_stripped { st with line := st.line + 1, preamble := false } _ line rfl line

/-- What a line does, its stripped form does. -/
theorem step_stripped (st : State) (line : Line) :
    seen (step st.stripped (strip line)) = seen (step st line) := by
  cases hmode : st.mode with
  | ready => exact ready_stripped hmode line
  | continued first opening pieces =>
    have hmode' : st.stripped.mode = .continued first (strip opening) (pieces.map strip) := by
      rw [stripped_mode, hmode, Mode.stripped]
    cases hskip : isBlankLine line || isComment line with
    | true =>
      rw [step_passedOver hmode hskip, step_passedOver hmode' (by simpa using hskip)]
      simp [seen, State.stripped]
    | false =>
      have hpieces : (pieces.map strip).map strip = pieces.map strip := by simp
      rw [step_continuing hmode hskip, step_continuing hmode' (by simpa using hskip)]
      exact extend_stripped { st with line := st.line + 1 } first opening hpieces line
  | hereDocument terminator =>
    have hmode' : st.stripped.mode = .hereDocument terminator := by
      rw [stripped_mode, hmode, Mode.stripped]
    by_cases ht : strip line = terminator
    · rw [step_terminator hmode ht, step_terminator hmode' (by simpa using ht)]
      simp [seen, State.stripped]
    · rw [step_body hmode ht, step_body hmode' (by simpa using ht)]
      simp [seen, State.stripped]

/-- What the end of the file does does not depend on blanks around lines. -/
theorem finish_stripped (st : State) : finish st.stripped = finish st := by
  rw [finish, finish]
  cases hmode : st.mode with
  | ready => rw [stripped_mode, hmode, Mode.stripped]
  | hereDocument terminator => rw [stripped_mode, hmode, Mode.stripped]
  | continued first opening pieces =>
    rw [stripped_mode, hmode, Mode.stripped]
    exact congrArg Prod.snd (complete_stripped st first opening (by simp))

/-- Lines that strip to the same bring the same. -/
theorem run_congr {st st' : State} {lines lines' : List Line} (hst : st'.stripped = st.stripped)
    (hlines : lines'.map strip = lines.map strip) : run st' lines' = run st lines := by
  induction lines generalizing st st' lines' with
  | nil =>
    obtain rfl := List.map_eq_nil_iff.1 hlines
    rw [run, run, ← finish_stripped st', hst, finish_stripped]
  | cons line lines ih =>
    obtain ⟨line', rest, rfl, hline, hrest⟩ := List.map_eq_cons_iff.1 hlines
    have hseen : seen (step st' line') = seen (step st line) := by
      rw [← step_stripped st', hst, hline, step_stripped]
    obtain ⟨hnext, hevents⟩ := Prod.mk.inj hseen
    rw [run_cons, run_cons, hevents, ih hnext hrest]

/-- What a complete instruction brings does not depend on the number of lines read. -/
theorem complete_events (st : State) (n : Nat) (mode : Mode) (first : Nat) (opening : Line)
    (pieces : List Line) :
    (complete { st with line := n, mode := mode } first opening pieces).2 =
      (complete st first opening pieces).2 := by
  rw [complete, complete]
  cases keyword? (joinPieces pieces) with
  | none => rfl
  | some found =>
    dsimp only
    split
    next => rfl
    next =>
      split
      next => rfl
      next => split <;> rfl

/-- A blank line at the end of the file brings nothing. -/
theorem run_blank_last (st : State) (lines : List Line) {blank : Line}
    (h : isBlankLine blank = true) : run st (lines ++ [blank]) = run st lines := by
  have hlast : ∀ st : State, run st [blank] = finish st := by
    intro st
    rw [run_cons, run]
    cases hmode : st.mode with
    | ready => simp [step_blank hmode h, finish, hmode]
    | continued first opening pieces =>
      have hskip : (isBlankLine blank || isComment blank) = true := by rw [h, Bool.true_or]
      simp [step_passedOver hmode hskip, finish, hmode, complete_events]
    | hereDocument terminator =>
      by_cases ht : strip blank = terminator
      · simp [step_terminator hmode ht, finish, hmode]
      · simp [step_body hmode ht, finish, hmode]
  have hrun := run_append st lines []
  rw [List.append_nil] at hrun
  rw [run_append, hlast, hrun, run]

end Steps

end Reader

namespace Dockerfile

open Reader

/-- A gap at the edge of a line means nothing. -/
theorem ofLines_gap {before gap after : List Char} (he : Lines.IsEdge before after)
    (hg : Lines.IsGap gap) :
    ofLines (Lines.split (before ++ gap ++ after)) = ofLines (Lines.split (before ++ after)) := by
  rw [ofLines, ofLines]
  obtain hsame | hlast := Lines.split_gap he hg
  · rw [run_congr rfl hsame]
  · have hblank : isBlankLine gap = true := by
      rw [isBlankLine, List.isEmpty_iff, Blank.strip, Blank.trim_eq_nil_iff]
      exact fun c hc => (hg c hc).1
    rw [hlast, run_blank_last _ _ hblank]

theorem ofLines_indented {cs cs' : List Char} (h : Lines.Indented cs cs') :
    ofLines (Lines.split cs') = ofLines (Lines.split cs) := by
  induction h with
  | same => rfl
  | gap _ he hg ih => exact (ofLines_gap he hg).trans ih

/-- Blanks at the edges of lines mean nothing, and neither does the style of the line ends. -/
theorem parse_indented (content content' : String)
    (hindented : Lines.Indented content.toList content'.toList) :
    parse content' = parse content ∧
      ∀ lineEnd ∈ ["\r\n", "\r"], '\r' ∉ content'.toList →
        parse (String.ofList (Lines.withEnds lineEnd.toList content'.toList)) = parse content := by
  have hsame : parse content' = parse content := ofLines_indented hindented
  refine ⟨hsame, fun lineEnd hend hcr => ?_⟩
  have hstyle : lineEnd.toList = ['\r', '\n'] ∨ lineEnd.toList = ['\r'] := by
    obtain rfl | rfl : lineEnd = "\r\n" ∨ lineEnd = "\r" := by simpa using hend
    · exact .inl rfl
    · exact .inr rfl
  rw [← hsame, parse, parse, String.toList_ofList, Lines.split_withEnds hstyle hcr]

/-- A tab behind the escape character, a wide space in a blank line and one in front of the end of
the here-document. -/
theorem parse_indented_of_three :
    let content := "# escape=`\n# note\nENV A=1 `\n\nB=2\nRUN <<E\nx\nE\nARG C"
    let content' := "# escape=`\n# note\nENV A=1 `\t\n\u3000\nB=2\nRUN <<E\nx\n\u3000E\nARG C"
    Lines.Indented content.toList content'.toList ∧ '\r' ∉ content'.toList ∧
      parse content' = parse content ∧
      parse "# escape=`\r# note\rENV A=1 `\t\r\u3000\rB=2\rRUN <<E\rx\r\u3000E\rARG C" =
        parse content ∧
      (parse content').instructions =
        [{ kind := .env
           declarations := [⟨"A", some "1"⟩, ⟨"B", some "2"⟩]
           comments := ["# note"]
           line := 3
           text := "ENV A=1 B=2" },
         { kind := .arg, declarations := [⟨"C", none⟩], line := 9, text := "ARG C" }] := by
  intro content content'
  have hbreak : Lines.isBreak '\n' = true := by decide
  have hput : ∀ (c : Char) {text text' : List Char} (before after : List Char),
      Lines.Indented content.toList text → text = before ++ after →
      text' = before ++ [c] ++ after → Lines.IsEdge before after →
      Blank.isBlank c = true ∧ Lines.isBreak c = false → Lines.Indented content.toList text' := by
    rintro c _ _ before after h rfl rfl he hc
    exact .gap h he fun d hd => by simpa [List.mem_singleton.1 hd] using hc
  have hfirst : Lines.Indented content.toList
      "# escape=`\n# note\nENV A=1 `\t\n\nB=2\nRUN <<E\nx\nE\nARG C".toList :=
    hput '\t' "# escape=`\n# note\nENV A=1 `".toList "\n\nB=2\nRUN <<E\nx\nE\nARG C".toList .same
      (by decide) (by decide) ⟨.inr (by simp [hbreak]), by simp⟩ ⟨rfl, rfl⟩
  have hsecond : Lines.Indented content.toList
      "# escape=`\n# note\nENV A=1 `\t\n\u3000\nB=2\nRUN <<E\nx\nE\nARG C".toList :=
    hput '\u3000' "# escape=`\n# note\nENV A=1 `\t\n".toList "\nB=2\nRUN <<E\nx\nE\nARG C".toList
      hfirst (by decide) (by decide) ⟨.inr (by simp [hbreak]), by simp⟩ ⟨rfl, rfl⟩
  have hindented : Lines.Indented content.toList content'.toList :=
    hput '\u3000' "# escape=`\n# note\nENV A=1 `\t\n\u3000\nB=2\nRUN <<E\nx\n".toList
      "E\nARG C".toList hsecond (by decide) (by decide)
      ⟨.inl (by simp [hbreak]), by simp⟩ ⟨rfl, rfl⟩
  have hcr : '\r' ∉ content'.toList := by decide
  have hends : String.ofList (Lines.withEnds "\r".toList content'.toList) =
      "# escape=`\r# note\rENV A=1 `\t\r\u3000\rB=2\rRUN <<E\rx\r\u3000E\rARG C" := by decide
  obtain ⟨hparse, hstyle⟩ := parse_indented content content' hindented
  have hreturn := hstyle "\r" (by simp) hcr
  rw [hends] at hreturn
  refine ⟨hindented, hcr, hparse, hreturn, ?_⟩
  decide

end Dockerfile
end ContainerDocs

import ContainerDocs.Dockerfile.Reader
import ContainerDocs.Proofs.Text.Blank

/-!
# What the reader of a Dockerfile does

What one line does, stated once for every kind of line, and how runs are put together.

## Main definitions

* `Reader.after`, `Reader.found` — the state and the events after some lines.
* `Reader.Completion` — what can come of a complete instruction.

## Main statements

* `Reader.run_append` — a run goes on where its first lines have left the reader.
* `Reader.complete_completion` — a complete instruction has one of five outcomes.
* `Reader.step_blank`, `Reader.step_comment`, … — what a line does when the reader is ready.
-/

namespace ContainerDocs
namespace Reader

/-! ## Runs -/

def after (st : State) (lines : List Line) : State :=
  lines.foldl (fun st line => (step st line).1) st

def found (st : State) : List Line → List Event
  | [] => []
  | line :: rest => (step st line).2 ++ found (step st line).1 rest

@[simp] theorem run_cons (st : State) (line : Line) (rest : List Line) :
    run st (line :: rest) = (step st line).2 ++ run (step st line).1 rest := rfl

@[simp] theorem found_cons (st : State) (line : Line) (rest : List Line) :
    found st (line :: rest) = (step st line).2 ++ found (step st line).1 rest := rfl

@[simp] theorem after_cons (st : State) (line : Line) (rest : List Line) :
    after st (line :: rest) = after (step st line).1 rest := rfl

theorem after_append (st : State) (lines rest : List Line) :
    after st (lines ++ rest) = after (after st lines) rest :=
  List.foldl_append

theorem found_append (st : State) (lines rest : List Line) :
    found st (lines ++ rest) = found st lines ++ found (after st lines) rest := by
  induction lines generalizing st with
  | nil => rfl
  | cons line lines ih => simp [ih]

theorem after_found_singleton (st : State) (line : Line) :
    (after st [line], found st [line]) = step st line := by
  rw [found_cons, after_cons]
  exact Prod.ext rfl (List.append_nil _)

/-- A run goes on where its first lines have left the reader. -/
theorem run_append (st : State) (lines rest : List Line) :
    run st (lines ++ rest) = found st lines ++ run (after st lines) rest := by
  induction lines generalizing st with
  | nil => rfl
  | cons line lines ih => simp [ih]

/-! ## Events -/

def Event.instruction? : Event → Option Instruction
  | .instruction i => some i
  | _ => none

def Event.instructions (events : List Event) : List Instruction :=
  events.filterMap Event.instruction?

@[simp] theorem Event.instructions_append (events more : List Event) :
    Event.instructions (events ++ more) = Event.instructions events ++ Event.instructions more :=
  List.filterMap_append

@[simp] theorem Event.instructions_notes (notes : List Note) :
    Event.instructions (notes.map .note) = [] := by
  simp [Event.instructions, Event.instruction?]

@[simp] theorem count_stage_notes (notes : List Note) :
    (notes.map Event.note).count .stage = 0 := by
  simp [List.count_eq_zero]

theorem ofEvents_instructions (events : List Event) :
    (Dockerfile.ofEvents events).instructions = Event.instructions events := by
  refine congrArg (List.filterMap · events) (funext fun e => ?_)
  cases e <;> rfl

/-! ## Complete instructions -/

/-- The reader after an instruction that is complete: its comment block is used up. -/
def State.done (st : State) : State := { st with comments := [], mode := .ready }

/-- What can come of a complete instruction with the given text that starts at line `first`. -/
inductive Completion (st : State) (first : Nat) (text : Line) : State → List Event → Prop where
  | unrecognized (n : Note) : keyword? text = none → Completion st first text st.done [.note n]
  | stage (arguments : Line) : keyword? text = some ("FROM".toList, arguments) →
      Completion st first text { st.done with stages := st.stages + 1 } [.stage]
  | hereDocument (arguments name : Line) : hereDocument? arguments = some name →
      Completion st first text { st.done with mode := .hereDocument name } []
  | passedOver : Completion st first text st.done []
  | instruction (keyword arguments : Line) (kind : Kind) :
      keyword? text = some (keyword, arguments) →
      Kind.ofKeyword? (String.ofList keyword) = some kind →
      Completion st first text st.done
        ((Arguments.notes kind st.escape arguments).map .note ++
          [.instruction {
            kind
            declarations := Arguments.declarations kind st.escape arguments
            comments := st.comments.map String.ofList
            line := first
            stage := st.stages - 1
            text := String.ofList text }])

/-- A complete instruction has one of five outcomes. -/
theorem complete_completion (st : State) (first : Nat) (opening : Line) (pieces : List Line) :
    Completion st first (joinPieces pieces) (complete st first opening pieces).1
      (complete st first opening pieces).2 := by
  rw [complete]
  split
  next hk => exact .unrecognized _ hk
  next keyword arguments hk =>
    split
    next hf => exact .stage arguments (hf ▸ hk)
    next =>
      split
      next name hd =>
        split_ifs at hd
        exact .hereDocument arguments name hd
      next =>
        split
        next => exact .passedOver
        next kind ho => exact .instruction keyword arguments kind hk ho

/-- The keyword of a kind makes a documented instruction. -/
theorem complete_instruction (st : State) (first : Nat) (opening : Line) {pieces : List Line}
    {kind : Kind} {arguments : Line}
    (hk : keyword? (joinPieces pieces) = some (kind.keyword.toList, arguments)) :
    complete st first opening pieces =
      (st.done, (Arguments.notes kind st.escape arguments).map .note ++
        [.instruction {
          kind
          declarations := Arguments.declarations kind st.escape arguments
          comments := st.comments.map String.ofList
          line := first
          stage := st.stages - 1
          text := String.ofList (joinPieces pieces) }]) := by
  have hf : kind.keyword.toList ≠ "FROM".toList := by cases kind <;> decide
  have hd : documentKeywords.contains kind.keyword.toList = false := by cases kind <;> decide
  have ho : Kind.ofKeyword? (String.ofList kind.keyword.toList) = some kind := by
    cases kind <;> decide
  simp only [complete, hk, if_neg hf, hd, ho]
  rfl

/-- The keyword of a stage opens one more stage. -/
theorem complete_stage (st : State) (first : Nat) (opening : Line) {pieces : List Line}
    {arguments : Line} (hk : keyword? (joinPieces pieces) = some ("FROM".toList, arguments)) :
    complete st first opening pieces =
      ({ st.done with stages := st.stages + 1 }, [.stage]) := by
  simp only [complete, hk, if_true]
  rfl

/-! ## Here-documents -/

theorem head?_openerName {cs name : Line} (h : openerName? cs = some name) :
    ∃ c ∈ name.head?, startsName c = true := by
  unfold openerName? at h
  extract_lets afterDash afterBlanks afterQuote at h
  cases hq : afterQuote with
  | nil => simp [hq] at h
  | cons c rest =>
    simp only [hq] at h
    split_ifs at h with hs
    have hn : isLetterOrDigit c || c == '_' := by
      revert hs
      simp only [startsName, isLetterOrDigit, Bool.or_eq_true]
      tauto
    cases h
    exact ⟨c, by simp [hn], hs⟩

/-- The name of a here-document starts with a letter or an underscore. -/
theorem head?_hereDocument {arguments name : Line} (h : hereDocument? arguments = some name) :
    ∃ c ∈ name.head?, startsName c = true := by
  induction arguments with
  | nil => cases h
  | cons c rest ih =>
    unfold hereDocument? at h
    extract_lets opened at h
    cases ho : opened with
    | none => exact ih (by simpa [ho] using h)
    | some found =>
      obtain rfl : found = name := by simpa [ho] using h
      cases rest with
      | nil => simp [opened] at ho
      | cons d more =>
        simp only [opened] at ho
        split_ifs at ho
        exact head?_openerName ho

/-! ## Lines between instructions -/

section Ready

variable {st : State} {line : Line}

theorem isBlankLine_of_isComment (h : isComment line = true) : isBlankLine line = false := by
  rw [isComment] at h
  rw [isBlankLine]
  cases hs : Blank.strip line with
  | nil => simp [hs] at h
  | cons => rfl

theorem isComment_of_isBlankLine (h : isBlankLine line = true) : isComment line = false := by
  by_contra hc
  simp [isBlankLine_of_isComment (by simpa using hc)] at h

/-- A blank line ends the comment block and the preamble. -/
theorem step_blank (hm : st.mode = .ready) (hb : isBlankLine line = true) :
    step st line =
      ({ st with line := st.line + 1, comments := [], preamble := false }, []) := by
  simp [step, stepReady, hm, hb]

/-- A directive at the top of the file sets the escape and nothing else. -/
theorem step_directive (hm : st.mode = .ready) (hc : isComment line = true)
    (hp : st.preamble = true) {name value : Line}
    (hd : directive? (Blank.strip line) = some (name, value)) :
    step st line =
      ({ st with line := st.line + 1, escape := escapeAfter st.escape name value }, []) := by
  simp [step, stepReady, hm, hc, isBlankLine_of_isComment hc, hp, hd]

/-- Any other comment extends the comment block. -/
theorem step_comment (hm : st.mode = .ready) (hc : isComment line = true)
    (hd : st.preamble = true → directive? (Blank.strip line) = none) :
    step st line =
      ({ st with
          line := st.line + 1
          comments := st.comments ++ [Blank.strip line]
          preamble := false }, []) := by
  have hn : (if st.preamble then directive? (Blank.strip line) else none) = none := by
    split
    next hp => exact hd hp
    next => rfl
  simp only [step, stepReady, hm, hc, isBlankLine_of_isComment hc, hn, if_true]
  rfl

/-- Any other line opens an instruction. -/
theorem step_opening (hm : st.mode = .ready) (hb : isBlankLine line = false)
    (hc : isComment line = false) :
    step st line =
      extend { st with line := st.line + 1, preamble := false } (st.line + 1) line [] line := by
  simp [step, stepReady, hm, hb, hc]

end Ready

/-! ## Lines inside an instruction or a here-document -/

section Inside

variable {st : State} {line : Line}

/-- Blank lines and comments inside an instruction are passed over. -/
theorem step_passedOver {first : Nat} {opening : Line} {pieces : List Line}
    (hm : st.mode = .continued first opening pieces)
    (h : (isBlankLine line || isComment line) = true) :
    step st line = ({ st with line := st.line + 1 }, []) := by
  simp [step, hm, h]

/-- Any other line inside an instruction continues it. -/
theorem step_continuing {first : Nat} {opening : Line} {pieces : List Line}
    (hm : st.mode = .continued first opening pieces)
    (h : (isBlankLine line || isComment line) = false) :
    step st line = extend { st with line := st.line + 1 } first opening pieces line := by
  simp [step, hm, h]

/-- The last line of a here-document makes the reader ready. -/
theorem step_terminator {terminator : Line} (hm : st.mode = .hereDocument terminator)
    (h : Blank.strip line = terminator) :
    step st line = ({ st with line := st.line + 1, mode := .ready }, []) := by
  simp [step, hm, h]

/-- The lines of a here-document change nothing. -/
theorem step_body {terminator : Line} (hm : st.mode = .hereDocument terminator)
    (h : Blank.strip line ≠ terminator) :
    step st line = ({ st with line := st.line + 1 }, []) := by
  simp [step, hm, h]

end Inside

end Reader
end ContainerDocs

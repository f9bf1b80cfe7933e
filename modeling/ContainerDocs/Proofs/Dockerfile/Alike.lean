import ContainerDocs.Proofs.Dockerfile.Comments

/-!
# Readers that go on alike

Two readers that know the same, up to how many lines and stages have gone before, find the same in
the lines that follow. Only the numbers of lines and stages differ, by what the second reader is
ahead.

## Main definitions

* `Reader.moved` — the number of a line after other lines have been put in above it.
* `Reader.Alike` — two readers that know the same.
* `Event.counted` — the instructions of events, each with the number of stages up to it.
* `Reader.AlikeEvents` — events that bring the same instructions.

## Main statements

* `Reader.step_alike` — a line keeps two readers alike.
* `Reader.run_alike` — two readers that are alike find the same instructions.
* `Dockerfile.ofLines_exchange` — lines may be exchanged for others that leave the reader alike.
-/

namespace ContainerDocs
namespace Reader

/-! ## Numbers of lines -/

/-- The number of a line when `lines` more lines stand right below line `edge`. -/
def moved (edge lines n : Nat) : Nat := if n ≤ edge then n else n + lines

theorem moved_of_le {edge lines n : Nat} (h : n ≤ edge) : moved edge lines n = n := if_pos h

theorem moved_of_lt {edge lines n : Nat} (h : edge < n) : moved edge lines n = n + lines :=
  if_neg (by omega)

/-- The instruction of a file in which `lines` more lines stand right below line `edge`. -/
def movedBelow (edge lines : Nat) (i : Instruction) : Instruction :=
  { i with line := moved edge lines i.line }

/-! ## Instructions with their stages -/

def Event.counted (stages : Nat) : List Event → List (Instruction × Nat)
  | [] => []
  | .stage :: rest => counted (stages + 1) rest
  | .instruction i :: rest => (i, stages) :: counted stages rest
  | .note _ :: rest => counted stages rest

theorem Event.counted_append (stages : Nat) (events more : List Event) :
    Event.counted stages (events ++ more) =
      Event.counted stages events ++ Event.counted (stages + events.count .stage) more := by
  induction events generalizing stages with
  | nil => rfl
  | cons e events ih =>
    cases e with
    | stage => simp [counted, ih, Nat.add_comm, Nat.add_left_comm]
    | instruction i => simp [counted, ih]
    | note n => simp [counted, ih]

@[simp] theorem Event.counted_notes (stages : Nat) (notes : List Note) :
    Event.counted stages (notes.map .note) = [] := by
  induction notes with
  | nil => rfl
  | cons n notes ih => exact ih

theorem Event.map_fst_counted (stages : Nat) (events : List Event) :
    (Event.counted stages events).map (·.1) = Event.instructions events := by
  induction events generalizing stages with
  | nil => rfl
  | cons e events ih =>
    cases e with
    | stage => exact ih _
    | instruction i => exact congrArg (i :: ·) (ih _)
    | note n => exact ih _

def relocated (edge lines stages : Nat) (p : Instruction × Nat) : Instruction :=
  { p.1 with line := moved edge lines p.1.line, stage := p.2 + stages - 1 }

/-- Events that bring the same instructions, but for the numbers of their lines and stages, when
`before` stages have gone before the first ones. -/
structure AlikeEvents (edge lines stages before : Nat) (events events' : List Event) : Prop where
  count : events'.count .stage = events.count .stage
  instructions :
    Event.instructions events' = (Event.counted before events).map (relocated edge lines stages)

theorem AlikeEvents.append {edge lines stages before : Nat} {events events' more more' : List Event}
    (h : AlikeEvents edge lines stages before events events')
    (h' : AlikeEvents edge lines stages (before + events.count .stage) more more') :
    AlikeEvents edge lines stages before (events ++ more) (events' ++ more') where
  count := by rw [List.count_append, List.count_append, h.count, h'.count]
  instructions := by
    rw [Event.instructions_append, Event.counted_append, List.map_append, h.instructions,
      h'.instructions]

/-! ## Readers -/

theorem joinPieces_congr {pieces pieces' : List Line}
    (h : pieces'.map Blank.strip = pieces.map Blank.strip) :
    joinPieces pieces' = joinPieces pieces := by
  rw [joinPieces, h, joinPieces]

/-- Readers in the middle of the same thing. Two instructions that continue may have been cut into
lines in different ways. -/
inductive Mode.Alike (edge lines : Nat) : Mode → Mode → Prop where
  | ready : Mode.Alike edge lines .ready .ready
  | continued (first : Nat) (opening opening' : Line) {pieces pieces' : List Line} :
      (∀ more, joinPieces (pieces' ++ more) = joinPieces (pieces ++ more)) →
      Mode.Alike edge lines (.continued first opening pieces)
        (.continued (moved edge lines first) opening' pieces')
  | hereDocument (terminator : Line) :
      Mode.Alike edge lines (.hereDocument terminator) (.hereDocument terminator)

namespace Mode.Alike

variable {edge lines first : Nat} {opening terminator : Line} {pieces : List Line} {mode : Mode}

theorem eq_ready (h : Mode.Alike edge lines .ready mode) : mode = .ready := by
  cases h
  rfl

theorem eq_hereDocument (h : Mode.Alike edge lines (.hereDocument terminator) mode) :
    mode = .hereDocument terminator := by
  cases h
  rfl

theorem exists_continued (h : Mode.Alike edge lines (.continued first opening pieces) mode) :
    ∃ opening' pieces', mode = .continued (moved edge lines first) opening' pieces' ∧
      ∀ more, joinPieces (pieces' ++ more) = joinPieces (pieces ++ more) := by
  cases h with
  | continued _ _ opening' hp => exact ⟨opening', _, rfl, hp⟩

end Mode.Alike

/-- Two readers below line `edge` that know the same: the second one has read `lines` more lines and
`stages` more stages. -/
structure Alike (edge lines stages : Nat) (st st' : State) : Prop where
  escape : st'.escape = st.escape
  comments : st'.comments = st.comments
  stages : st'.stages = st.stages + stages
  preamble : st'.preamble = st.preamble
  line : st'.line = st.line + lines
  edge_le : edge ≤ st.line
  mode : st.mode.Alike edge lines st'.mode

/-- Two readers that are alike after they have found the same. -/
structure AlikeAfter (edge lines stages before : Nat) (r r' : State × List Event) : Prop where
  alike : Alike edge lines stages r.1 r'.1
  events : AlikeEvents edge lines stages before r.2 r'.2
  stages_eq : r.1.stages = before + r.2.count .stage

section Steps

variable {edge lines stages : Nat} {st st' : State}

theorem AlikeEvents.nil {before : Nat} : AlikeEvents edge lines stages before [] [] := ⟨rfl, rfl⟩

theorem Alike.done (h : Alike edge lines stages st st') :
    Alike edge lines stages st.done st'.done :=
  ⟨h.escape, rfl, h.stages, h.preamble, h.line, h.edge_le, .ready⟩

theorem complete_alike (h : Alike edge lines stages st st') (first : Nat) (opening opening' : Line)
    {pieces pieces' : List Line} (hp : joinPieces pieces' = joinPieces pieces) :
    AlikeAfter edge lines stages st.stages (complete st first opening pieces)
      (complete st' (moved edge lines first) opening' pieces') := by
  have hd := h.done
  rw [complete, complete, hp]
  cases hk : keyword? (joinPieces pieces) with
  | none => exact ⟨hd, ⟨rfl, rfl⟩, rfl⟩
  | some found =>
    obtain ⟨keyword, arguments⟩ := found
    dsimp only
    by_cases hf : keyword = "FROM".toList
    · rw [if_pos hf, if_pos hf]
      refine ⟨⟨hd.escape, rfl, ?_, hd.preamble, hd.line, hd.edge_le, .ready⟩, ⟨rfl, rfl⟩, rfl⟩
      change st'.stages + 1 = st.stages + 1 + stages
      rw [h.stages, Nat.add_right_comm]
    · rw [if_neg hf, if_neg hf]
      split
      next name hd' =>
        exact ⟨⟨hd.escape, rfl, hd.stages, hd.preamble, hd.line, hd.edge_le, .hereDocument name⟩,
          .nil, rfl⟩
      next =>
        split
        next => exact ⟨hd, .nil, rfl⟩
        next kind ho =>
          refine ⟨hd, ?_, ?_⟩
          · rw [h.escape, h.comments, h.stages]
            refine ⟨?_, ?_⟩
            · simp
            · simp [Event.counted_append, Event.counted, Event.instructions, Event.instruction?,
                relocated]
          · simp

/-- A content line of an instruction. The two lines end alike, and what they add joins to the same,
with or without the last character. -/
theorem extend_alike_of_joinPieces (h : Alike edge lines stages st st') (first : Nat)
    (opening opening' : Line) {pieces pieces' : List Line} {line line' : Line}
    (hlast : (Blank.stripRight line').getLast? = (Blank.stripRight line).getLast?)
    (hcut : ∀ more, joinPieces (pieces' ++ [(Blank.stripRight line').dropLast] ++ more) =
      joinPieces (pieces ++ [(Blank.stripRight line).dropLast] ++ more))
    (hwhole : joinPieces (pieces' ++ [Blank.stripRight line']) =
      joinPieces (pieces ++ [Blank.stripRight line])) :
    AlikeAfter edge lines stages st.stages (extend st first opening pieces line)
      (extend st' (moved edge lines first) opening' pieces' line') := by
  rw [extend, extend, hlast]
  by_cases hc : (Blank.stripRight line).getLast? = some st.escape
  · rw [if_pos hc, if_pos (h.escape ▸ hc)]
    exact ⟨⟨h.escape, h.comments, h.stages, h.preamble, h.line, h.edge_le,
      .continued first opening opening' hcut⟩, .nil, rfl⟩
  · rw [if_neg hc, if_neg (h.escape ▸ hc)]
    exact complete_alike h first opening opening' hwhole

/-- A content line of an instruction. Blanks around the lines do not count. -/
theorem extend_alike (h : Alike edge lines stages st st') (first : Nat) (opening opening' : Line)
    {pieces pieces' : List Line} {line line' : Line} (hl : Blank.strip line' = Blank.strip line)
    (hp : ∀ more, joinPieces (pieces' ++ more) = joinPieces (pieces ++ more)) :
    AlikeAfter edge lines stages st.stages (extend st first opening pieces line)
      (extend st' (moved edge lines first) opening' pieces' line') := by
  -- Two last pieces that differ in blanks around them join to the same text.
  have hjoin : ∀ (last last' : Line), Blank.strip last' = Blank.strip last → ∀ more,
      joinPieces (pieces' ++ [last'] ++ more) = joinPieces (pieces ++ [last] ++ more) := by
    intro last last' hlast more
    rw [List.append_assoc, List.append_assoc, hp]
    exact joinPieces_congr (by simp [hlast])
  refine extend_alike_of_joinPieces h first opening opening' ?_ (hjoin _ _ ?_) ?_
  · rw [Blank.getLast?_stripRight, Blank.getLast?_stripRight, hl]
  · rw [Blank.strip_dropLast_stripRight, Blank.strip_dropLast_stripRight, hl]
  · have hstrip : Blank.strip (Blank.stripRight line') = Blank.strip (Blank.stripRight line) := by
      rw [Blank.strip_stripRight, Blank.strip_stripRight, hl]
    simpa using hjoin _ _ hstrip []

theorem isBlankLine_congr {line line' : Line} (hl : Blank.strip line' = Blank.strip line) :
    isBlankLine line' = isBlankLine line := by
  rw [isBlankLine, hl, isBlankLine]

theorem isComment_congr {line line' : Line} (hl : Blank.strip line' = Blank.strip line) :
    isComment line' = isComment line := by
  rw [isComment, hl, isComment]

/-- A line between instructions. -/
theorem ready_alike (h : Alike edge lines stages st st') (hm : st.mode = .ready)
    (hm' : st'.mode = .ready) {line line' : Line} (hl : Blank.strip line' = Blank.strip line) :
    AlikeAfter edge lines stages st.stages (step st line) (step st' line') := by
  have hnext : st'.line + 1 = st.line + 1 + lines := by rw [h.line, Nat.add_right_comm]
  have hedge : edge ≤ st.line + 1 := Nat.le_succ_of_le h.edge_le
  have hb := isBlankLine_congr hl
  have hc := isComment_congr hl
  by_cases hblank : isBlankLine line = true
  · rw [step_blank hm hblank, step_blank hm' (hb.trans hblank)]
    exact ⟨⟨h.escape, rfl, h.stages, rfl, hnext, hedge, h.mode⟩, .nil, rfl⟩
  by_cases hcomment : isComment line = true
  · by_cases hd : st.preamble = true ∧ (directive? (Blank.strip line)).isSome = true
    · obtain ⟨hp, hd⟩ := hd
      obtain ⟨⟨name, value⟩, hv⟩ := Option.isSome_iff_exists.1 hd
      rw [step_directive hm hcomment hp hv,
        step_directive hm' (hc.trans hcomment) (h.preamble.trans hp) (hl ▸ hv), h.escape]
      exact ⟨⟨rfl, h.comments, h.stages, h.preamble, hnext, hedge, h.mode⟩, .nil, rfl⟩
    · have hv : st.preamble = true → directive? (Blank.strip line) = none := by
        intro hp
        simpa [hp] using hd
      rw [step_comment hm hcomment hv,
        step_comment hm' (hc.trans hcomment) fun hp => hl ▸ hv (h.preamble ▸ hp), hl, h.comments]
      exact ⟨⟨h.escape, rfl, h.stages, rfl, hnext, hedge, h.mode⟩, .nil, rfl⟩
  · have hn : isBlankLine line = false := by simpa using hblank
    have hn' : isComment line = false := by simpa using hcomment
    have hst : Alike edge lines stages { st with line := st.line + 1, preamble := false }
        { st' with line := st'.line + 1, preamble := false } :=
      ⟨h.escape, h.comments, h.stages, rfl, hnext, hedge, h.mode⟩
    have hfirst : st'.line + 1 = moved edge lines (st.line + 1) := by
      rw [hnext, moved_of_lt (Nat.lt_succ_of_le h.edge_le)]
    have hnone : ∀ more : List Line, joinPieces ([] ++ more) = joinPieces ([] ++ more) :=
      fun _ => rfl
    have hextend := extend_alike hst (st.line + 1) line line' hl hnone
    rw [← hfirst] at hextend
    rw [step_opening hm hn hn', step_opening hm' (hb.trans hn) (hc.trans hn')]
    exact hextend

/-- A line keeps two readers alike, and both find the same. Blanks around the lines do not count. -/
theorem step_alike (h : Alike edge lines stages st st') {line line' : Line}
    (hl : Blank.strip line' = Blank.strip line) :
    AlikeAfter edge lines stages st.stages (step st line) (step st' line') := by
  have hm := h.mode
  have hst : Alike edge lines stages { st with line := st.line + 1 }
      { st' with line := st'.line + 1 } :=
    ⟨h.escape, h.comments, h.stages, h.preamble, by rw [h.line, Nat.add_right_comm],
      Nat.le_succ_of_le h.edge_le, h.mode⟩
  cases hmode : st.mode with
  | ready =>
    rw [hmode] at hm
    exact ready_alike h hmode hm.eq_ready hl
  | continued first opening pieces =>
    rw [hmode] at hm
    obtain ⟨opening', pieces', hmode', hp⟩ := hm.exists_continued
    have hskip' : (isBlankLine line' || isComment line') =
        (isBlankLine line || isComment line) := by
      rw [isBlankLine_congr hl, isComment_congr hl]
    cases hskip : isBlankLine line || isComment line with
    | true =>
      rw [step_passedOver hmode hskip, step_passedOver hmode' (hskip'.trans hskip)]
      exact ⟨hst, .nil, rfl⟩
    | false =>
      rw [step_continuing hmode hskip, step_continuing hmode' (hskip'.trans hskip)]
      exact extend_alike hst first opening opening' hl hp
  | hereDocument terminator =>
    rw [hmode] at hm
    have hmode' := hm.eq_hereDocument
    by_cases ht : Blank.strip line = terminator
    · rw [step_terminator hmode ht, step_terminator hmode' (hl.trans ht)]
      exact ⟨⟨hst.escape, hst.comments, hst.stages, hst.preamble, hst.line, hst.edge_le, .ready⟩,
        .nil, rfl⟩
    · rw [step_body hmode ht, step_body hmode' (hl ▸ ht)]
      exact ⟨hst, .nil, rfl⟩

/-- The end of the file brings the same to both. -/
theorem finish_alike (h : Alike edge lines stages st st') :
    AlikeEvents edge lines stages st.stages (finish st) (finish st') := by
  have hm := h.mode
  rw [finish, finish]
  cases hmode : st.mode with
  | ready =>
    rw [hmode] at hm
    rw [hm.eq_ready]
    exact .nil
  | hereDocument terminator =>
    rw [hmode] at hm
    rw [hm.eq_hereDocument]
    exact .nil
  | continued first opening pieces =>
    rw [hmode] at hm
    obtain ⟨opening', pieces', hmode', hp⟩ := hm.exists_continued
    rw [hmode']
    exact (complete_alike h first opening opening' (by simpa using hp [])).events

/-- Two readers that are alike find the same in the same lines. -/
theorem run_alike (h : Alike edge lines stages st st') (rest : List Line) :
    AlikeEvents edge lines stages st.stages (run st rest) (run st' rest) := by
  induction rest generalizing st st' with
  | nil => exact finish_alike h
  | cons line rest ih =>
    have hstep : AlikeAfter edge lines stages st.stages (step st line) (step st' line) :=
      step_alike h rfl
    have hrest := ih hstep.alike
    rw [hstep.stages_eq] at hrest
    exact hstep.events.append hrest

theorem Mode.Alike.refl (mode : Mode) : mode.Alike 0 0 mode := by
  cases mode with
  | ready => exact .ready
  | hereDocument terminator => exact .hereDocument terminator
  | continued first opening pieces =>
    have hfirst : moved 0 0 first = first := by simp [moved]
    have h : Mode.Alike 0 0 (.continued first opening pieces)
        (.continued (moved 0 0 first) opening pieces) :=
      .continued first opening opening fun _ => rfl
    rwa [hfirst] at h

theorem Alike.refl (st : State) : Alike 0 0 0 st st :=
  ⟨rfl, rfl, rfl, rfl, rfl, Nat.zero_le _, .refl st.mode⟩

/-- The stage of an instruction is the last one before it. -/
theorem stage_of_mem_counted {lines : List Line} :
    ∀ p ∈ Event.counted st.stages (run st lines), p.1.stage = p.2 - 1 := by
  have h := (run_alike (Alike.refl st) lines).instructions
  rw [← Event.map_fst_counted st.stages, List.map_inj_left] at h
  intro p hp
  exact congrArg Instruction.stage (h p hp)

/-- Readers that have found the same and are alike afterwards find the same to the end. -/
theorem run_exchange {mid mid' : List Line}
    (h : AlikeAfter edge lines stages st.stages (after st mid, found st mid)
      (after st' mid', found st' mid')) (rest : List Line) :
    AlikeEvents edge lines stages st.stages (run st (mid ++ rest)) (run st' (mid' ++ rest)) := by
  rw [run_append, run_append]
  have hrest := run_alike h.alike rest
  rw [h.stages_eq] at hrest
  exact h.events.append hrest

/-- With no stages ahead, only the numbers of lines differ. -/
theorem AlikeEvents.eq_map_movedBelow {lines' : List Line} {events' : List Event}
    (h : AlikeEvents edge lines 0 st.stages (run st lines') events') :
    Event.instructions events' =
      (Event.instructions (run st lines')).map (movedBelow edge lines) := by
  rw [h.instructions, ← Event.map_fst_counted st.stages, List.map_map]
  refine List.map_congr_left fun p hp => ?_
  rw [relocated, Nat.add_zero, ← stage_of_mem_counted p hp]
  rfl

end Steps

/-! ## Whole files -/

theorem invariant_after {read : List Line} {st : State} (h : Invariant read st)
    (lines : List Line) : Invariant (read ++ lines) (after st lines) := by
  induction lines generalizing read st with
  | nil => rwa [List.append_nil]
  | cons line lines ih =>
    have hrest := ih (step_outcome h line).invariant
    rwa [List.append_assoc, List.singleton_append] at hrest

theorem stages_after {read : List Line} {st : State} (h : Invariant read st) (lines : List Line) :
    (after st lines).stages = st.stages + (found st lines).count .stage := by
  induction lines generalizing read st with
  | nil => rfl
  | cons line lines ih =>
    have ho := step_outcome h line
    rw [after_cons, ih ho.invariant, ho.stages_eq, found, List.count_append, Nat.add_assoc]

/-- Nothing is still to come of lines after which the reader is ready. -/
theorem run_eq_found {before : List Line} (h : (after {} before).mode = .ready) :
    run {} before = found {} before := by
  have happend := run_append {} before []
  rw [List.append_nil] at happend
  rw [happend, run, finish, h, List.append_nil]

end Reader

namespace Dockerfile

open Reader

variable {before mid mid' rest : List Line} {lines : Nat}

/-- Lines may be exchanged for others that bring the same and leave the reader alike. What stands
below them has moved. -/
theorem ofLines_exchange (hv : (after {} before).mode = .ready)
    (h : AlikeAfter (before.length + mid.length) lines 0 (after {} before).stages
      (after (after {} before) mid, found (after {} before) mid)
      (after (after {} before) mid', found (after {} before) mid')) :
    (ofLines (before ++ (mid' ++ rest))).instructions =
        (ofLines (before ++ (mid ++ rest))).instructions.map
          (movedBelow (before.length + mid.length) lines) ∧
      (ofLines (before ++ (mid' ++ rest))).stages = (ofLines (before ++ (mid ++ rest))).stages := by
  have hrun := run_exchange h rest
  have hstages : ∀ lines : List Line,
      (ofLines lines).stages = (run {} lines).count .stage := fun _ => rfl
  constructor
  · rw [ofLines, ofLines, ofEvents_instructions, ofEvents_instructions,
      run_append {} before (mid' ++ rest), run_append {} before (mid ++ rest),
      Event.instructions_append, Event.instructions_append, List.map_append,
      hrun.eq_map_movedBelow, List.append_left_inj]
    -- What stands above the lines keeps its place.
    have hplaced := (run_ordered invariant_start before).placed
    rw [run_eq_found hv, List.nil_append] at hplaced
    refine (List.map_id _).symm.trans (List.map_congr_left fun i hi => ?_)
    obtain ⟨comments, -, hat⟩ := (hplaced i hi).2.startsAt
    have hle := hat.le
    rw [movedBelow, moved_of_le (by omega)]
    rfl
  · rw [hstages, hstages, run_append {} before (mid' ++ rest), run_append {} before (mid ++ rest),
      List.count_append, List.count_append, hrun.count]

/-- A blank line is a fence: what stands below it is found by a reader that starts there and knows
the escape, and only its lines and stages count on from above. -/
theorem parse_below_blank (content : String) (before rest : List Line) (blank : Line)
    (hlines : Lines.split content.toList = before ++ blank :: rest)
    (hvisited : (after {} before).mode = .ready) (hblank : isBlankLine blank = true) :
    let above := ofLines before
    let below := run { escape := (after {} before).escape, preamble := false } rest
    (parse content).instructions = above.instructions ++
        (Event.counted 0 below).map (fun p =>
          { p.1 with line := p.1.line + (before.length + 1), stage := above.stages + p.2 - 1 }) ∧
      (parse content).stages = above.stages + below.count .stage := by
  intro above below
  have hline : (after {} before).line = before.length :=
    (invariant_after invariant_start before).line
  have hstages : (after {} before).stages = above.stages := by
    rw [stages_after invariant_start, ← run_eq_found hvisited]
    exact Nat.zero_add _
  have hrun : run {} (before ++ blank :: rest) =
      run {} before ++ run (step (after {} before) blank).1 rest := by
    rw [run_append, run_cons, run_eq_found hvisited, step_blank hvisited hblank, List.nil_append]
  have halike : Alike 0 (before.length + 1) above.stages
      { escape := (after {} before).escape, preamble := false }
      (step (after {} before) blank).1 := by
    rw [step_blank hvisited hblank]
    have hmode : Mode.Alike 0 (before.length + 1) .ready (after {} before).mode := by
      rw [hvisited]
      exact .ready
    exact ⟨rfl, rfl, by simp [hstages], rfl, by simp [hline], Nat.zero_le _, hmode⟩
  have hbelow := run_alike halike rest
  have hfresh : Invariant [] { escape := (after {} before).escape, preamble := false } :=
    ⟨rfl, by simp, fun _ => isBlockOf_directives (by simp), by simp, by simp⟩
  constructor
  · rw [parse, hlines, ofLines, ofEvents_instructions, hrun, Event.instructions_append,
      hbelow.instructions, ← ofEvents_instructions, ← ofLines, List.append_right_inj]
    refine List.map_congr_left fun p hp => ?_
    have hmem : p.1 ∈ Event.instructions below := by
      rw [← Event.map_fst_counted 0]
      exact List.mem_map_of_mem hp
    have hpos := ((run_ordered hfresh rest).placed p.1 hmem).1
    rw [relocated, moved_of_lt hpos, Nat.add_comm p.2]
  · change (run {} (Lines.split content.toList)).count .stage = _
    rw [hlines, hrun, List.count_append, hbelow.count]
    rfl

/-- The comment above the blank line is forgotten, and the escape and the stage are kept. -/
theorem parse_below_blank_of_stages :
    let content := "# escape=`\nFROM a\n# above\n \n# below\nENV A=1 `\n\n B=2\nFROM b\nARG C\n"
    let before : List Line := ["# escape=`".toList, "FROM a".toList, "# above".toList]
    let rest : List Line := ["# below".toList, "ENV A=1 `".toList, [], " B=2".toList,
      "FROM b".toList, "ARG C".toList]
    Lines.split content.toList = before ++ [' '] :: rest ∧
      (after {} before).mode = .ready ∧
      isBlankLine [' '] = true ∧
      (parse content).instructions = (ofLines before).instructions ++
        [{ kind := .env
           declarations := [⟨"A", some "1"⟩, ⟨"B", some "2"⟩]
           comments := ["# below"]
           line := 6
           stage := 0
           text := "ENV A=1 B=2" },
         { kind := .arg, declarations := [⟨"C", none⟩], line := 10, stage := 1, text := "ARG C" }] ∧
      (parse content).stages = (ofLines before).stages + 1 := by
  intro content before rest
  have hlines : Lines.split content.toList = before ++ [' '] :: rest := by decide
  have hvisited : (after {} before).mode = .ready := by decide
  have hblank : isBlankLine [' '] = true := by decide
  obtain ⟨hinstructions, hstages⟩ :=
    parse_below_blank content before rest [' '] hlines hvisited hblank
  refine ⟨hlines, hvisited, hblank, hinstructions.trans ?_, hstages.trans ?_⟩
  · rw [List.append_right_inj]
    decide
  · decide

end Dockerfile
end ContainerDocs

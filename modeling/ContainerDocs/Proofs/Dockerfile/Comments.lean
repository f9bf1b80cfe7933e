import ContainerDocs.Proofs.Dockerfile.Reader

/-!
# Instructions and the comments above them

Every instruction stands where it says it stands, and its comments are the whole comment block right
above it. The invariant ties the comments that the reader holds to the lines that it has read.

## Main definitions

* `Reader.IsBlockOf` — comments as the whole block at the end of some lines.
* `Reader.WellPlaced` — what an instruction says about the lines of its file.
* `Reader.Invariant` — what the reader knows about the lines that it has read.

## Main statements

* `Reader.step_outcome` — what one line preserves and brings.
* `Reader.run_ordered` — what a whole run brings.
* `Dockerfile.parse_comment_blocks` — the instructions of a file among its lines.
-/

namespace ContainerDocs

/-! ## Declarations -/

namespace Arguments

theorem orBlank_ne_nil (ds : List Declaration) : orBlank ds ≠ [] := by
  rw [orBlank]
  split_ifs with h
  · simp
  · simpa using h

/-- An argument text that is empty or starts with a word declares something. -/
theorem declarations_ne_nil (kind : Kind) (escape : Char) {cs : List Char}
    (h : ∀ c ∈ cs.head?, Blank.isBlank c = false) : declarations kind escape cs ≠ [] := by
  have hl : ∀ kind : Kind, kind = .env ∨ kind = .label → declarations kind escape cs ≠ [] := by
    rintro _ (rfl | rfl) <;>
    · simp only [declarations]
      split
      · exact List.cons_ne_nil _ _
      · split
        · exact orBlank_ne_nil _
        · exact List.cons_ne_nil _ _
  cases kind with
  | arg => exact orBlank_ne_nil _
  | env => exact hl .env (.inl rfl)
  | label => exact hl .label (.inr rfl)
  | expose =>
    cases cs with
    | nil => simp [declarations]
    | cons c rest =>
      have hw : Blank.words (c :: rest) ≠ [] := fun hn => by
        have := Blank.words_eq_nil_iff.1 hn c (by simp)
        simp [h c rfl] at this
      simpa [declarations] using hw

end Arguments

namespace Reader

/-- The arguments of an instruction do not start with a blank. -/
theorem not_blank_head?_arguments {text keyword arguments : Line}
    (h : keyword? text = some (keyword, arguments)) :
    ∀ c ∈ arguments.head?, Blank.isBlank c = false := by
  unfold keyword? at h
  extract_lets body letters at h
  split at h
  · cases h
  · cases h
    simp
  · split_ifs at h
    cases h
    exact Blank.not_head?_trim

/-! ## Comment blocks -/

def isDirective (line : Line) : Bool :=
  isComment line && (directive? (Blank.strip line)).isSome

/-- Whether comments are the whole block at the end of some lines: no comment stands right above the
block, except for a parser directive with nothing but parser directives above it. -/
def IsBlockOf (lines comments : List Line) : Prop :=
  ∃ before block, lines = before ++ block ∧ comments = block.map Blank.strip ∧
    (∀ line ∈ block, isComment line = true) ∧
    ((∃ line ∈ before.getLast?, isComment line = true) →
      ∀ line ∈ before, isDirective line = true)

/-- Below a line that is no comment there is no block yet. -/
theorem isBlockOf_snoc_nil {lines : List Line} {line : Line} (h : isComment line = false) :
    IsBlockOf (lines ++ [line]) [] :=
  ⟨lines ++ [line], [], by simp, rfl, by simp, by simp [h]⟩

/-- Below parser directives there is no block yet. -/
theorem isBlockOf_directives {lines : List Line} (h : ∀ line ∈ lines, isDirective line = true) :
    IsBlockOf lines [] :=
  ⟨lines, [], by simp, rfl, by simp, fun _ => h⟩

theorem IsBlockOf.snoc {lines comments : List Line} {line : Line} (h : IsBlockOf lines comments)
    (hc : isComment line = true) :
    IsBlockOf (lines ++ [line]) (comments ++ [Blank.strip line]) := by
  obtain ⟨before, block, rfl, rfl, hb, ha⟩ := h
  refine ⟨before, block ++ [line], by simp, by simp, ?_, ha⟩
  intro l hl
  rcases List.mem_append.1 hl with hl | hl
  · exact hb l hl
  · rwa [List.mem_singleton.1 hl]

/-- An instruction that starts at line `first` of the lines, with its comment block. -/
structure StartsAt (lines : List Line) (first : Nat) (comments : List Line) : Prop where
  pos : 1 ≤ first
  le : first ≤ lines.length
  block : IsBlockOf (lines.take (first - 1)) comments

theorem StartsAt.append {lines comments : List Line} {first : Nat}
    (h : StartsAt lines first comments) (more : List Line) :
    StartsAt (lines ++ more) first comments := by
  have hl := h.le
  refine ⟨h.pos, by simp; omega, ?_⟩
  rw [List.take_append_of_le_length (by omega)]
  exact h.block

structure WellPlaced (lines : List Line) (i : Instruction) : Prop where
  declarations_ne_nil : i.declarations ≠ []
  startsAt : ∃ comments, i.comments = comments.map String.ofList ∧ StartsAt lines i.line comments

theorem WellPlaced.append {lines : List Line} {i : Instruction} (h : WellPlaced lines i)
    (more : List Line) : WellPlaced (lines ++ more) i := by
  obtain ⟨comments, hc, hs⟩ := h.startsAt
  exact ⟨h.declarations_ne_nil, comments, hc, hs.append more⟩

/-! ## The invariant -/

structure Invariant (read : List Line) (st : State) : Prop where
  line : st.line = read.length
  preamble : st.preamble = true →
    st.mode = .ready ∧ st.comments = [] ∧ ∀ line ∈ read, isDirective line = true
  ready : st.mode = .ready → IsBlockOf read st.comments
  continued : ∀ first opening pieces, st.mode = .continued first opening pieces →
    StartsAt read first st.comments
  hereDocument : ∀ terminator, st.mode = .hereDocument terminator →
    st.comments = [] ∧ ∃ c ∈ terminator.head?, startsName c = true

def State.earliest (st : State) : Nat :=
  match st.mode with
  | .continued first _ _ => first
  | _ => st.line + 1

/-- What a line has brought to a reader that is now in a state: at most one instruction, which
starts at the earliest line and is well placed. -/
structure Outcome (read : List Line) (earliest stages : Nat) (next : State)
    (events : List Event) : Prop where
  invariant : Invariant read next
  stages_eq : next.stages = stages + events.count .stage
  earliest_le : earliest ≤ next.earliest
  instructions : Event.instructions events = [] ∨
    ∃ i, Event.instructions events = [i] ∧ i.line = earliest ∧ i.line < next.earliest ∧
      i.stage = stages - 1 ∧ WellPlaced read i

/-! ## One line -/

section Step

variable {read : List Line} {st : State} {line : Line}

/-- A reader that is ready below lines that end in no comment, with an empty block. -/
theorem invariant_done {lines : List Line} (hl : st.line = (lines ++ [line]).length)
    (hp : st.preamble = false) (hc : isComment line = false) :
    Invariant (lines ++ [line]) st.done where
  line := hl
  preamble h := by simp [State.done, hp] at h
  ready _ := isBlockOf_snoc_nil hc
  continued := by simp [State.done]
  hereDocument := by simp [State.done]

/-- A complete instruction brings at most one documented instruction, with the comment block of the
reader. -/
theorem Completion.instructions {lines : List Line} {first : Nat} {text : Line} {next : State}
    {events : List Event} (h : Completion st first text next events)
    (hs : StartsAt lines first st.comments) :
    Event.instructions events = [] ∨
      ∃ i, Event.instructions events = [i] ∧ i.line = first ∧ i.stage = st.stages - 1 ∧
        WellPlaced lines i := by
  cases h with
  | unrecognized | stage | hereDocument | passedOver => exact .inl rfl
  | instruction keyword arguments kind hk ho =>
    refine .inr
      ⟨_, by rw [Event.instructions_append, Event.instructions_notes]; rfl, rfl, rfl, ?_, ?_⟩
    · exact Arguments.declarations_ne_nil _ _ (not_blank_head?_arguments hk)
    · exact ⟨st.comments, rfl, hs⟩

/-- A complete instruction counts the stage that it opens. -/
theorem Completion.stages {first : Nat} {text : Line} {next : State} {events : List Event}
    (h : Completion st first text next events) :
    next.stages = st.stages + events.count .stage := by
  cases h with
  | unrecognized | stage | hereDocument | passedOver => rfl
  | instruction => simp [State.done]

theorem complete_outcome {first : Nat} {opening : Line} {pieces : List Line}
    (hl : st.line = (read ++ [line]).length) (hp : st.preamble = false)
    (hc : isComment line = false) (hs : StartsAt (read ++ [line]) first st.comments) :
    Outcome (read ++ [line]) first st.stages (complete st first opening pieces).1
      (complete st first opening pieces).2 := by
  have hd := invariant_done hl hp hc
  have hle : first ≤ st.line := hl ▸ hs.le
  have h := complete_completion st first opening pieces
  generalize complete st first opening pieces = result at h ⊢
  obtain ⟨next, events⟩ := result
  dsimp only at h ⊢
  have he : next.earliest = st.line + 1 := by cases h <;> rfl
  refine ⟨?_, h.stages, by omega, ?_⟩
  · cases h with
    | unrecognized | passedOver | instruction => exact hd
    | stage => exact ⟨hd.line, hd.preamble, hd.ready, hd.continued, hd.hereDocument⟩
    | hereDocument arguments name hn =>
      refine ⟨hd.line, fun h => ?_, by simp, by simp, ?_⟩
      · simp [State.done, hp] at h
      · rintro _ ⟨⟩
        exact ⟨rfl, head?_hereDocument hn⟩
  · rcases h.instructions hs with hi | ⟨i, hi, hline, hstage, hw⟩
    · exact .inl hi
    · exact .inr ⟨i, hi, hline, by omega, hstage, hw⟩

theorem extend_outcome (st : State) {first : Nat} {opening : Line} {pieces : List Line}
    (hl : st.line = (read ++ [line]).length) (hp : st.preamble = false)
    (hc : isComment line = false) (hs : StartsAt (read ++ [line]) first st.comments) :
    Outcome (read ++ [line]) first st.stages (extend st first opening pieces line).1
      (extend st first opening pieces line).2 := by
  rw [extend]
  split
  · refine ⟨⟨hl, fun h => ?_, by simp, ?_, by simp⟩, rfl, le_rfl, .inl rfl⟩
    · simp [hp] at h
    · rintro _ _ _ ⟨⟩
      exact hs
  · exact complete_outcome hl hp hc hs

theorem outcome_nil {next : State} {earliest stages : Nat} (h : Invariant read next)
    (hs : next.stages = stages) (he : earliest ≤ next.earliest) :
    Outcome read earliest stages next [] :=
  ⟨h, hs, he, .inl rfl⟩

/-- A line between instructions. -/
theorem ready_outcome (h : Invariant read st) (hm : st.mode = .ready) (line : Line) :
    Outcome (read ++ [line]) st.earliest st.stages (step st line).1 (step st line).2 := by
  have hl : st.line + 1 = (read ++ [line]).length := by simp [h.line]
  have he : st.earliest = st.line + 1 := by simp [State.earliest, hm]
  by_cases hb : isBlankLine line = true
  · have hc := isComment_of_isBlankLine hb
    rw [step_blank hm hb]
    refine outcome_nil ⟨hl, by simp, fun _ => isBlockOf_snoc_nil hc, ?_, ?_⟩ rfl ?_
    · simp [hm]
    · simp [hm]
    · simp [State.earliest, hm]
  by_cases hc : isComment line = true
  · by_cases hd : st.preamble = true ∧ (directive? (Blank.strip line)).isSome = true
    · -- The line is one more directive at the top of the file.
      obtain ⟨hp, hd⟩ := hd
      obtain ⟨⟨name, value⟩, hv⟩ := Option.isSome_iff_exists.1 hd
      obtain ⟨-, hn, ha⟩ := h.preamble hp
      have hall : ∀ l ∈ read ++ [line], isDirective l = true := by
        intro l hl
        rcases List.mem_append.1 hl with hl | hl
        · exact ha l hl
        · rw [List.mem_singleton.1 hl, isDirective, hc, hd]
          rfl
      rw [step_directive hm hc hp hv]
      refine outcome_nil ⟨hl, fun _ => ⟨hm, hn, hall⟩, fun _ => ?_, ?_, ?_⟩ rfl ?_
      · rw [hn]
        exact isBlockOf_directives hall
      · simp [hm]
      · simp [hm]
      · simp [State.earliest, hm]
    · have hv : st.preamble = true → directive? (Blank.strip line) = none := by
        intro hp
        simpa [hp] using hd
      rw [step_comment hm hc hv]
      refine outcome_nil ⟨hl, by simp, fun _ => (h.ready hm).snoc hc, ?_, ?_⟩ rfl ?_
      · simp [hm]
      · simp [hm]
      · simp [State.earliest, hm]
  · have hs : StartsAt (read ++ [line]) (st.line + 1) st.comments := by
      refine ⟨by omega, hl.le, ?_⟩
      have ht : (read ++ [line]).take (st.line + 1 - 1) = read := by simp [h.line]
      rw [ht]
      exact h.ready hm
    rw [step_opening hm (by simpa using hb) (by simpa using hc), he]
    exact extend_outcome { st with line := st.line + 1, preamble := false } hl rfl
      (by simpa using hc) hs

/-- What one line preserves and brings. -/
theorem step_outcome (h : Invariant read st) (line : Line) :
    Outcome (read ++ [line]) st.earliest st.stages (step st line).1 (step st line).2 := by
  have hl : st.line + 1 = (read ++ [line]).length := by simp [h.line]
  have hp : st.mode ≠ .ready → st.preamble = false := by
    intro hm
    by_contra hp
    exact hm (h.preamble (by simpa using hp)).1
  cases hm : st.mode with
  | ready => exact ready_outcome h hm line
  | continued first opening pieces =>
    have he : st.earliest = first := by simp [State.earliest, hm]
    have hs := (h.continued first opening pieces hm).append [line]
    have hp := hp (by simp [hm])
    rw [he]
    by_cases hi : (isBlankLine line || isComment line) = true
    · rw [step_passedOver hm hi]
      refine outcome_nil ⟨hl, by simp [hp], by simp [hm], ?_, by simp [hm]⟩ rfl ?_
      · intro first' opening' pieces' hm'
        obtain ⟨rfl, rfl, rfl⟩ : first = first' ∧ opening = opening' ∧ pieces = pieces' := by
          simpa [hm] using hm'
        exact hs
      · simp [State.earliest, hm]
    · obtain ⟨-, hc⟩ : isBlankLine line = false ∧ isComment line = false := by simpa using hi
      rw [step_continuing hm (by simpa using hi)]
      exact extend_outcome { st with line := st.line + 1 } hl hp hc hs
  | hereDocument terminator =>
    have he : st.earliest = st.line + 1 := by simp [State.earliest, hm]
    obtain ⟨hn, c, hc, hs⟩ := h.hereDocument terminator hm
    have hp := hp (by simp [hm])
    rw [he]
    by_cases ht : Blank.strip line = terminator
    · -- A terminator starts with a letter or an underscore and so is no comment.
      have hcomment : isComment line = false := by
        rw [isComment, ht, Option.mem_def.1 hc]
        by_contra hx
        obtain rfl : c = '#' := by simpa using hx
        exact absurd hs (by decide)
      rw [step_terminator hm ht]
      refine outcome_nil ⟨hl, by simp [hp], fun _ => ?_, by simp, by simp⟩ rfl ?_
      · rw [hn]
        exact isBlockOf_snoc_nil hcomment
      · simp [State.earliest]
    · rw [step_body hm ht]
      refine outcome_nil ⟨hl, by simp [hp], by simp [hm], by simp [hm], ?_⟩ rfl ?_
      · exact fun t h' => h.hereDocument t (by simpa using h')
      · simp [State.earliest, hm]

end Step

/-! ## Whole runs -/

/-- What a run brings to a reader whose next instruction starts no earlier than `earliest` and
whose number of stages so far is `stages`. -/
structure Ordered (lines : List Line) (earliest stages : Nat) (events : List Event) : Prop where
  placed : ∀ i ∈ Event.instructions events, earliest ≤ i.line ∧ WellPlaced lines i
  staged : ∀ i ∈ Event.instructions events,
    stages - 1 ≤ i.stage ∧ i.stage ≤ stages + events.count .stage - 1
  increasing : (Event.instructions events).Pairwise fun i j => i.line < j.line ∧ i.stage ≤ j.stage

theorem Ordered.nil {lines : List Line} {earliest stages : Nat} {events : List Event}
    (h : Event.instructions events = []) : Ordered lines earliest stages events := by
  refine ⟨?_, ?_, ?_⟩ <;> simp [h]

/-- The end of the file brings at most the instruction that still continues. -/
theorem finish_ordered {read : List Line} {st : State} (h : Invariant read st) :
    Ordered read st.earliest st.stages (finish st) := by
  rw [finish]
  split
  next first opening pieces hm =>
    have he : st.earliest = first := by simp [State.earliest, hm]
    have hc := complete_completion st first opening pieces
    rcases hc.instructions (h.continued first opening pieces hm) with
      hi | ⟨i, hi, hline, hstage, hw⟩
    · exact .nil hi
    · refine ⟨?_, ?_, ?_⟩
      · simp [hi, hline, hw, he]
      · simp [hi, hstage]
        omega
      · simp [hi]
  next => exact .nil rfl

/-- What a whole run brings. -/
theorem run_ordered {read : List Line} {st : State} (h : Invariant read st) (rest : List Line) :
    Ordered (read ++ rest) st.earliest st.stages (run st rest) := by
  induction rest generalizing read st with
  | nil =>
    rw [List.append_nil]
    exact finish_ordered h
  | cons line rest ih =>
    have ho := step_outcome h line
    have hr := ih ho.invariant
    have hs := ho.stages_eq
    have he := ho.earliest_le
    rw [List.append_assoc, List.singleton_append] at hr
    rw [run_cons]
    generalize step st line = result at *
    obtain ⟨next, events⟩ := result
    dsimp only at *
    have hown : ∀ i ∈ Event.instructions events, i.line = st.earliest ∧ i.line < next.earliest ∧
        i.stage = st.stages - 1 ∧ WellPlaced (read ++ [line]) i := by
      rcases ho.instructions with hn | ⟨i, hi, hi'⟩
      · simp [hn]
      · simpa [hi] using hi'
    have hpair : (Event.instructions events).Pairwise
        fun i j => i.line < j.line ∧ i.stage ≤ j.stage := by
      rcases ho.instructions with hn | ⟨i, hi, -⟩
      · simp [hn]
      · simp [hi]
    refine ⟨?_, ?_, ?_⟩ <;> rw [Event.instructions_append]
    · intro i hi
      rcases List.mem_append.1 hi with hi | hi
      · obtain ⟨hline, -, -, hw⟩ := hown i hi
        exact ⟨hline.ge, by simpa using hw.append rest⟩
      · obtain ⟨hle, hw⟩ := hr.placed i hi
        exact ⟨he.trans hle, hw⟩
    · intro i hi
      rw [List.count_append]
      rcases List.mem_append.1 hi with hi | hi
      · obtain ⟨-, -, hstage, -⟩ := hown i hi
        omega
      · have := hr.staged i hi
        omega
    · refine List.pairwise_append.2 ⟨hpair, hr.increasing, fun i hi j hj => ?_⟩
      obtain ⟨-, hlt, hstage, -⟩ := hown i hi
      have hj' := (hr.placed j hj).1
      have hs' := (hr.staged j hj).1
      omega

theorem invariant_start : Invariant [] {} where
  line := rfl
  preamble _ := ⟨rfl, rfl, by simp⟩
  ready _ := isBlockOf_directives (by simp)
  continued := by simp
  hereDocument := by simp

end Reader

namespace Dockerfile

open Reader

/-- The instructions of a file stand in order among its lines and its stages, each declares
something, and the comments of each are the whole block of comment lines right above it. Arguments
that are not empty have a first word. -/
theorem parse_comment_blocks (content : String) :
    let lines := Lines.split content.toList
    let file := Dockerfile.parse content
    (∀ i ∈ file.instructions, 1 ≤ i.line ∧ i.line ≤ lines.length) ∧
    file.instructions.Pairwise (fun i j => i.line < j.line ∧ i.stage ≤ j.stage) ∧
    (∀ i ∈ file.instructions, i.stage ≤ file.stages - 1) ∧
    (∀ i ∈ file.instructions, i.declarations ≠ []) ∧
    (∀ text keyword arguments, keyword? text = some (keyword, arguments) → arguments ≠ [] →
      Blank.words arguments ≠ []) ∧
    ∀ i ∈ file.instructions, ∃ before block,
      lines.take (i.line - 1) = before ++ block ∧
      i.comments = block.map (fun line => String.ofList (Blank.strip line)) ∧
      (∀ line ∈ block, (Blank.strip line).head? = some '#') ∧
      ∀ above ∈ before.getLast?, (Blank.strip above).head? = some '#' →
        ∀ line ∈ before, isDirective line = true := by
  intro lines file
  have ho : Ordered lines 1 0 (run {} lines) := run_ordered invariant_start lines
  have hi : file.instructions = Event.instructions (run {} lines) := ofEvents_instructions _
  have hs : file.stages = (run {} lines).count .stage := rfl
  rw [hi, hs]
  refine ⟨?_, ho.increasing, ?_, ?_, ?_, ?_⟩
  · intro i hm
    obtain ⟨-, -, comments, -, hat⟩ := ho.placed i hm
    exact ⟨hat.pos, hat.le⟩
  · intro i hm
    have := ho.staged i hm
    omega
  · exact fun i hm => (ho.placed i hm).2.declarations_ne_nil
  · intro text keyword arguments hk hne hw
    obtain ⟨c, rest, rfl⟩ := List.exists_cons_of_ne_nil hne
    have hb := Blank.words_eq_nil_iff.1 hw c (by simp)
    simp [not_blank_head?_arguments hk c rfl] at hb
  · intro i hm
    obtain ⟨-, -, comments, hc, -, -, before, block, hl, rfl, hblock, hbefore⟩ := ho.placed i hm
    refine ⟨before, block, hl, by simp [hc], ?_, ?_⟩
    · exact fun line h => by simpa [isComment] using hblock line h
    · exact fun above h hcomment => hbefore ⟨above, h, by simpa [isComment] using hcomment⟩

/-- The block of a continued instruction ends at a blank line, and the lines in it do not count. -/
theorem parse_comment_blocks_continued :
    let content := "# syntax=x\n# a\n\n  # b\nENV A=1 \\\n# c\n B=2\n"
    let i : Instruction := {
      kind := .env
      declarations := [⟨"A", some "1"⟩, ⟨"B", some "2"⟩]
      comments := ["# b"]
      line := 5
      text := "ENV A=1 B=2" }
    (Dockerfile.parse content).instructions = [i] ∧
      Blank.words "A=1 B=2".toList ≠ [] ∧
      ∃ before block,
        (Lines.split content.toList).take 4 = before ++ block ∧
        i.comments = block.map (fun line => String.ofList (Blank.strip line)) ∧
        (∀ line ∈ block, (Blank.strip line).head? = some '#') ∧
        ∀ above ∈ before.getLast?, (Blank.strip above).head? = some '#' →
          ∀ line ∈ before, isDirective line = true := by
  intro content i
  have hp : (Dockerfile.parse content).instructions = [i] := by decide
  obtain ⟨-, -, -, -, hw, hb⟩ := parse_comment_blocks content
  refine ⟨hp, hw "ENV A=1 B=2".toList "ENV".toList _ (by decide) (by decide), ?_⟩
  exact hb i (by rw [hp]; exact List.mem_singleton_self i)

end Dockerfile
end ContainerDocs

import ContainerDocs.Proofs.Dockerfile.Escape
import ContainerDocs.Proofs.Dockerfile.Words
import ContainerDocs.Proofs.Text.Indentation
import Mathlib.Data.Bool.AllAny

/-!
# Writing and reading a Dockerfile

A list of stages and instructions has a written form, and reading the written form gives the
instructions back.

## Main definitions

* `Written.Token`, `Written.Value`, `Written.Comment` — the parts of a written file.
* `Written.Entry` — a stage or an instruction, with the lines that it is written on.
* `Written.file` — the written form of a list of entries.
* `Written.instructions` — the instructions that a list of entries stands for.

## Main statements

* `Dockerfile.parse_file` — reading undoes writing.
-/

namespace ContainerDocs
namespace Written

/-! ## Written entries -/

def isPlain (c : Char) : Bool :=
  !Blank.isBlank c && c != '=' && c != '"' && c != '\'' && c != '\\'

/-- A key, a port or an image. -/
structure Token where
  chars : List Char
  ne_nil : chars ≠ []
  plain : ∀ c ∈ chars, isPlain c = true

structure Value where
  chars : List Char
  oneLine : ∀ c ∈ chars, Lines.isBreak c = false

/-- A comment line, without blanks around it. -/
structure Comment where
  chars : List Char
  head : chars.head? = some '#'
  stripped : Blank.strip chars = chars
  oneLine : ∀ c ∈ chars, Lines.isBreak c = false

structure Argument where
  key : Token
  value : Option Value

namespace Argument

/-- Whether an instruction of a kind can have the argument: a variable or label has a value, a port
has none. -/
def suits (a : Argument) : Kind → Bool
  | .arg => true
  | .env | .label => a.value.isSome
  | .expose => a.value.isNone

/-- The argument with its value between double quotes. -/
def text (a : Argument) : List Char :=
  match a.value with
  | none => a.key.chars
  | some v => a.key.chars ++ '=' :: '"' :: (Words.protect '\\' v.chars ++ ['"'])

def declaration (kind : Kind) (a : Argument) : Declaration where
  key := String.ofList a.key.chars
  value :=
    if kind = .expose then some (String.ofList a.key.chars)
    else a.value.map fun v => String.ofList v.chars

end Argument

/-- An instruction with the comments above it. -/
structure Clause where
  kind : Kind
  comments : List Comment
  arguments : List Argument
  ne_nil : arguments ≠ []
  suits : ∀ a ∈ arguments, a.suits kind = true

def Clause.argumentText (c : Clause) : List Char :=
  List.intercalate [' '] (c.arguments.map Argument.text)

def Clause.line (c : Clause) : Line := c.kind.keyword.toList ++ ' ' :: c.argumentText

inductive Entry where
  | stage (image : Token)
  | clause (c : Clause)

/-- The lines of an entry: the last one is empty. -/
def Entry.lines : Entry → List Line
  | stage image => ["FROM".toList ++ ' ' :: image.chars, []]
  | clause c => c.comments.map Comment.chars ++ [c.line, []]

/-- The written form of a list of entries: an empty line, then the lines of the entries. -/
def file (entries : List Entry) : String :=
  String.ofList (Lines.terminated ([] :: entries.flatMap Entry.lines))

/-- The instruction of a clause whose first comment stands right below line `above`, after a number
of stages. -/
def Clause.instruction (c : Clause) (above stages : Nat) : Instruction where
  kind := c.kind
  declarations := c.arguments.map (Argument.declaration c.kind)
  comments := c.comments.map fun comment => String.ofList comment.chars
  line := above + c.comments.length + 1
  stage := stages - 1
  text := String.ofList c.line

/-- The instructions of a list of entries that stand below line `above`, after a number of
stages. -/
def instructions (above stages : Nat) : List Entry → List Instruction
  | [] => []
  | .stage image :: rest =>
    instructions (above + (Entry.stage image).lines.length) (stages + 1) rest
  | .clause c :: rest =>
    c.instruction above stages ::
      instructions (above + (Entry.clause c).lines.length) stages rest

def stages (entries : List Entry) : Nat :=
  entries.countP fun
    | .stage _ => true
    | .clause _ => false

end Written

/-! ## Written arguments -/

namespace Arguments

theorem cutAtEquals_append {key : List Char} (h : '=' ∉ key) (value : List Char) :
    cutAtEquals (key ++ '=' :: value) = some (key, value) := by
  induction key with
  | nil => simp [cutAtEquals]
  | cons c key ih =>
    obtain ⟨hc, hk⟩ : '=' ≠ c ∧ '=' ∉ key := by simpa using h
    simp [cutAtEquals, hc.symm, ih hk]

theorem cutAtEquals_eq_none {key : List Char} (h : '=' ∉ key) : cutAtEquals key = none := by
  induction key with
  | nil => rfl
  | cons c key ih =>
    obtain ⟨hc, hk⟩ : '=' ≠ c ∧ '=' ∉ key := by simpa using h
    simp [cutAtEquals, hc.symm, ih hk]

end Arguments

namespace Written

theorem isPlain_iff {c : Char} :
    isPlain c = true ↔
      Blank.isBlank c = false ∧ c ≠ '=' ∧ c ≠ '"' ∧ c ≠ '\'' ∧ c ≠ '\\' := by
  simp [isPlain, and_assoc]

theorem isSeparator_of_not_isBlank {c : Char} (h : Blank.isBlank c = false) :
    Words.isSeparator c = false := by
  have hs : ¬ (c = ' ' ∨ c = '\t' ∨ c = '\r' ∨ c = '\n') := by
    rintro (rfl | rfl | rfl | rfl) <;> exact absurd h (by decide)
  simpa [Words.isSeparator, and_assoc] using hs

namespace Token

variable (t : Token)

theorem not_blank : ∀ c ∈ t.chars, Blank.isBlank c = false :=
  fun c hc => (isPlain_iff.1 (t.plain c hc)).1

theorem not_mem_equals : '=' ∉ t.chars := fun h => (isPlain_iff.1 (t.plain _ h)).2.1 rfl

theorem whole : Reader.Whole '\\' t.chars := by
  refine .of_forall t.ne_nil fun c hc => ⟨t.not_blank c hc, ?_⟩
  exact (isPlain_iff.1 (t.plain c hc)).2.2.2.2

theorem writable : (Words.Segment.bare t.chars).Writable '\\' := by
  refine ⟨t.ne_nil, fun c hc => ?_⟩
  obtain ⟨hb, -, hd, hs, he⟩ := isPlain_iff.1 (t.plain c hc)
  exact ⟨isSeparator_of_not_isBlank hb, hs, hd, he⟩

end Token

namespace Argument

def pieces (a : Argument) : List Words.Segment :=
  match a.value with
  | none => [.bare a.key.chars]
  | some v => [.bare a.key.chars, .bare ['='], .double v.chars]

theorem written_pieces (a : Argument) : Words.written '\\' a.pieces = a.text := by
  rcases a with ⟨key, _ | v⟩ <;>
    simp [pieces, text, Words.written, Words.Segment.written]

theorem pieces_writable (a : Argument) :
    a.pieces ≠ [] ∧ ∀ s ∈ a.pieces, s.Writable '\\' := by
  have he : (Words.Segment.bare ['=']).Writable '\\' := by
    simp [Words.Segment.Writable, Words.isSeparator]
  rcases a with ⟨key, _ | v⟩
  · simp [pieces, key.writable]
  · have hd : (Words.Segment.double v.chars).Writable '\\' := trivial
    simp [pieces, key.writable, he, hd]

/-- The word of an argument makes the declaration of the argument. -/
theorem ofWord_text (a : Argument) {kind : Kind} (h : kind ≠ .expose) :
    Arguments.ofWord (Words.text a.pieces) = a.declaration kind := by
  rcases a with ⟨key, _ | v⟩
  · simp [pieces, Words.text, Words.Segment.text, Arguments.ofWord, declaration, h,
      Arguments.cutAtEquals_eq_none key.not_mem_equals]
  · simp [pieces, Words.text, Words.Segment.text, Arguments.ofWord, declaration, h,
      Arguments.cutAtEquals_append key.not_mem_equals]

theorem whole (a : Argument) : Reader.Whole '\\' a.text := by
  have hq : Reader.Whole '\\' ['"'] :=
    .of_forall (by decide) (List.all_iff_forall_prop.1 (by decide))
  rcases a with ⟨key, _ | v⟩
  · exact key.whole
  · have ht : Argument.text ⟨key, some v⟩ =
        key.chars ++ ('=' :: '"' :: Words.protect '\\' v.chars) ++ ['"'] := by
      simp [text]
    rw [ht]
    exact key.whole.append _ hq

end Argument

namespace Clause

variable (c : Clause)

theorem whole_argumentText : Reader.Whole '\\' c.argumentText := by
  refine Reader.Whole.intercalate _ (by simpa using c.ne_nil) fun part hp => ?_
  obtain ⟨a, -, rfl⟩ := List.mem_map.1 hp
  exact a.whole

/-- The written arguments are read as the words of the arguments. -/
theorem split?_argumentText :
    Words.split? '\\' c.argumentText = some (c.arguments.map fun a => Words.text a.pieces) := by
  have hw : c.arguments.map Argument.text =
      (c.arguments.map Argument.pieces).map (Words.written '\\') := by
    simp [Argument.written_pieces]
  rw [argumentText, hw, Words.split?_intercalate Words.isEscape_backslash (by decide), List.map_map]
  · rfl
  · intro w h
    obtain ⟨a, -, rfl⟩ := List.mem_map.1 h
    exact a.pieces_writable

/-- Shell words make the declarations of the arguments. -/
theorem ofWords_argumentText (hk : c.kind ≠ .expose) :
    Arguments.ofWords '\\' c.argumentText = c.arguments.map (Argument.declaration c.kind) := by
  have hm : (c.arguments.map fun a => Words.text a.pieces).map Arguments.ofWord =
      c.arguments.map (Argument.declaration c.kind) := by
    simp [Argument.ofWord_text _ hk]
  rw [Arguments.ofWords, Words.split, c.split?_argumentText, Option.getD_some, hm,
    Arguments.orBlank, if_neg (by simpa using c.ne_nil)]

/-- The first word of the arguments of a variable or a label has an equals sign. -/
theorem firstWord?_argumentText (hk : c.kind = .env ∨ c.kind = .label) :
    ∃ first after, Blank.firstWord? c.argumentText = some (first, after) ∧
      '=' ∈ first := by
  obtain ⟨a, more, ha⟩ := List.exists_cons_of_ne_nil c.ne_nil
  have hs : a.value.isSome = true := by
    have := c.suits a (by simp [ha])
    rcases hk with hk | hk <;> simpa [hk, Argument.suits] using this
  obtain ⟨v, hv⟩ := Option.isSome_iff_exists.1 hs
  obtain ⟨rest, hr⟩ : ∃ rest, c.argumentText = (a.key.chars ++ ['=']) ++ rest := by
    rw [argumentText, ha, List.map_cons]
    cases more with
    | nil => exact ⟨_, by simp [Argument.text, hv, List.intercalate_singleton]; rfl⟩
    | cons b more => exact ⟨_, by simp [Argument.text, hv, List.intercalate_cons_cons]; rfl⟩
  have hb : ∀ d ∈ a.key.chars ++ ['='], Blank.isBlank d = false := by
    intro d hd
    rcases List.mem_append.1 hd with hd | hd
    · exact a.key.not_blank d hd
    · rw [List.mem_singleton.1 hd]
      decide
  obtain ⟨u, after, hf⟩ := Blank.firstWord?_append (by simp) hb rest
  exact ⟨_, after, hr ▸ hf, by simp⟩

/-- The words of the arguments of a port are the ports. -/
theorem words_argumentText (hk : c.kind = .expose) :
    Blank.words c.argumentText = c.arguments.map fun a => a.key.chars := by
  have ht : c.arguments.map Argument.text = c.arguments.map fun a => a.key.chars := by
    refine List.map_congr_left fun a ha => ?_
    have hv : a.value = none := by simpa [hk, Argument.suits] using c.suits a ha
    rw [Argument.text, hv]
  rw [argumentText, ht, Blank.words_intercalate (by decide)]
  intro w hw
  obtain ⟨a, -, rfl⟩ := List.mem_map.1 hw
  exact ⟨a.key.ne_nil, a.key.not_blank⟩

/-- The written arguments make the declarations of the arguments. -/
theorem declarations_argumentText :
    Arguments.declarations c.kind '\\' c.argumentText =
      c.arguments.map (Argument.declaration c.kind) := by
  cases hk : c.kind with
  | arg =>
    rw [← hk]
    simpa [Arguments.declarations, hk] using c.ofWords_argumentText (by simp [hk])
  | env =>
    obtain ⟨first, after, hf, he⟩ := c.firstWord?_argumentText (.inl hk)
    simpa [Arguments.declarations, hf, he, hk] using c.ofWords_argumentText (by simp [hk])
  | label =>
    obtain ⟨first, after, hf, he⟩ := c.firstWord?_argumentText (.inr hk)
    simpa [Arguments.declarations, hf, he, hk] using c.ofWords_argumentText (by simp [hk])
  | expose =>
    have hne : c.argumentText ≠ [] := c.whole_argumentText.ne_nil
    simp [Arguments.declarations, hne, c.words_argumentText hk, Argument.declaration]

/-- There is nothing to note about written arguments. -/
theorem notes_argumentText : Arguments.notes c.kind '\\' c.argumentText = [] := by
  simp [Arguments.notes, c.split?_argumentText]

end Clause

/-! ## Reading entries -/

/-- The reader below line `above` and after a number of stages, with comments collected. -/
def collecting (above stages : Nat) (comments : List Line) : Reader.State where
  comments := comments
  stages := stages
  preamble := false
  line := above

theorem head?_keyword (kind : Kind) : kind.keyword.toList.head? ≠ some '#' := by
  cases kind <;> decide

theorem keyword_letters (kind : Kind) :
    kind.keyword.toList ≠ [] ∧ kind.keyword.toList.map Reader.upperLetter = kind.keyword.toList ∧
      ∀ c ∈ kind.keyword.toList, Reader.isLetter c = true ∧ Blank.isBlank c = false := by
  refine ⟨?_, ?_, List.all_iff_forall_prop.1 ?_⟩ <;> cases kind <;> decide

section Steps

variable (above stages : Nat) (held : List Line)

theorem step_collecting_nil :
    Reader.step (collecting above stages held) [] = (collecting (above + 1) stages [], []) := by
  rw [Reader.step_blank rfl rfl]
  rfl

theorem step_collecting_comment (comment : Comment) :
    Reader.step (collecting above stages held) comment.chars =
      (collecting (above + 1) stages (held ++ [comment.chars]), []) := by
  have hc : Reader.isComment comment.chars = true := by
    simp [Reader.isComment, comment.stripped, comment.head]
  rw [Reader.step_comment rfl hc (by simp [collecting]), comment.stripped]
  rfl

/-- A stage is one line. -/
theorem step_collecting_stage (image : Token) :
    Reader.step (collecting above stages held) ("FROM".toList ++ ' ' :: image.chars) =
      (collecting (above + 1) (stages + 1) [], [.stage]) := by
  have hk : Reader.keyword? ("FROM".toList ++ ' ' :: image.chars) =
      some ("FROM".toList, image.chars) := by
    rw [Reader.keyword?_append (by decide) (List.all_iff_forall_prop.1 (by decide)),
      image.whole.strip_eq]
    rfl
  have hf : Reader.Whole '\\' "FROM".toList :=
    .of_forall (by decide) (List.all_iff_forall_prop.1 (by decide))
  have hw : Reader.Whole '\\' ("FROM".toList ++ ' ' :: image.chars) := by
    simpa using hf.append [' '] image.whole
  rw [← Reader.joinPieces_whole hw] at hk
  rw [Reader.step_whole rfl hw (by simp), Reader.complete_stage _ _ _ hk]
  rfl

/-- The line of a clause makes the instruction of the clause. -/
theorem step_collecting_clause (c : Clause) :
    Reader.step (collecting (above + c.comments.length) stages (c.comments.map Comment.chars))
        c.line =
      (collecting (above + c.comments.length + 1) stages [],
        [.instruction (c.instruction above stages)]) := by
  obtain ⟨hne, hu, hl⟩ := keyword_letters c.kind
  have hk : Reader.keyword? c.line = some (c.kind.keyword.toList, c.argumentText) := by
    rw [Clause.line, Reader.keyword?_append hne hl, c.whole_argumentText.strip_eq, hu]
  have hw : Reader.Whole '\\' c.line := by
    have hf : Reader.Whole '\\' c.kind.keyword.toList := by
      refine .of_forall hne (List.all_iff_forall_prop.1 ?_)
      cases c.kind <;> decide
    simpa [Clause.line] using hf.append [' '] c.whole_argumentText
  have hh : c.line.head? ≠ some '#' := by
    rw [Clause.line, List.head?_append_of_ne_nil _ hne]
    exact head?_keyword c.kind
  rw [← Reader.joinPieces_whole hw] at hk
  rw [Reader.step_whole rfl hw hh, Reader.complete_instruction _ _ _ hk,
    Reader.joinPieces_whole hw]
  simp [collecting, Reader.State.done, c.notes_argumentText, c.declarations_argumentText,
    Clause.instruction]

end Steps

/-- The comments above an instruction are collected. -/
theorem run_comments (comments : List Comment) (rest : List Line) (above stages : Nat)
    (held : List Line) :
    Reader.run (collecting above stages held) (comments.map Comment.chars ++ rest) =
      Reader.run
        (collecting (above + comments.length) stages (held ++ comments.map Comment.chars))
        rest := by
  induction comments generalizing above held with
  | nil => simp
  | cons comment comments ih =>
    rw [List.map_cons, List.cons_append, Reader.run_cons, step_collecting_comment]
    simp [ih, Nat.add_assoc, Nat.add_comm 1]

/-- What the entries below a line bring: the stages and the instructions, in order. -/
def events (above stages : Nat) : List Entry → List Reader.Event
  | [] => []
  | .stage image :: rest =>
    .stage :: events (above + (Entry.stage image).lines.length) (stages + 1) rest
  | .clause c :: rest =>
    .instruction (c.instruction above stages) ::
      events (above + (Entry.clause c).lines.length) stages rest

/-- The entries are read one after another. -/
theorem run_entries (entries : List Entry) (above stages : Nat) :
    Reader.run (collecting above stages []) (entries.flatMap Entry.lines) =
      events above stages entries := by
  induction entries generalizing above stages with
  | nil => rfl
  | cons entry rest ih =>
    cases entry with
    | stage image =>
      simp only [List.flatMap_cons, Entry.lines, List.cons_append, List.nil_append,
        Reader.run_cons, step_collecting_stage, step_collecting_nil, ih, events]
      rfl
    | clause c =>
      simp only [List.flatMap_cons, Entry.lines, List.append_assoc, run_comments, List.cons_append,
        List.nil_append, Reader.run_cons, step_collecting_clause, step_collecting_nil, ih, events]
      simp [Nat.add_assoc]

theorem instructions_events (entries : List Entry) (above stages : Nat) :
    Reader.Event.instructions (events above stages entries) =
      instructions above stages entries := by
  induction entries generalizing above stages with
  | nil => rfl
  | cons entry rest ih =>
    cases entry with
    | stage image => exact ih _ _
    | clause c => exact congrArg (c.instruction above stages :: ·) (ih _ _)

theorem count_stage_events (entries : List Entry) (above before : Nat) :
    (events above before entries).count .stage = stages entries := by
  induction entries generalizing above before with
  | nil => rfl
  | cons entry rest ih => cases entry <;> simp [events, stages, ih]

theorem notes_events (entries : List Entry) (above stages : Nat) :
    (Dockerfile.ofEvents (events above stages entries)).notes = [] := by
  induction entries generalizing above stages with
  | nil => rfl
  | cons entry rest ih => cases entry <;> exact ih _ _

/-! ## Written lines -/

theorem isBreak_of_not_isBlank {c : Char} (h : Blank.isBlank c = false) :
    Lines.isBreak c = false := by
  simp only [Blank.isBlank, Blank.isBlankCode, Lines.isBreak, Bool.or_eq_false_iff,
    Bool.and_eq_false_iff, decide_eq_false_iff_not, beq_eq_false_iff_ne] at h ⊢
  omega

theorem Token.oneLine (t : Token) : ∀ c ∈ t.chars, Lines.isBreak c = false :=
  fun c hc => isBreak_of_not_isBlank (t.not_blank c hc)

theorem Argument.oneLine (a : Argument) : ∀ c ∈ a.text, Lines.isBreak c = false := by
  rcases a with ⟨key, _ | v⟩
  · exact key.oneLine
  · intro c hc
    have hp : ∀ d ∈ Words.protect '\\' v.chars, Lines.isBreak d = false := by
      intro d hd
      obtain ⟨e, he, hd⟩ := List.mem_flatMap.1 hd
      split_ifs at hd
      · obtain rfl | rfl : d = '\\' ∨ d = e := by simpa using hd
        · decide
        · exact v.oneLine d he
      · rw [List.mem_singleton.1 hd]
        exact v.oneLine e he
    obtain hc | rfl | rfl | hc | rfl : c ∈ key.chars ∨ c = '=' ∨ c = '"' ∨
        c ∈ Words.protect '\\' v.chars ∨ c = '"' := by
      simpa [Argument.text] using hc
    · exact key.oneLine c hc
    · decide
    · decide
    · exact hp c hc
    · decide

theorem oneLine_intercalate {parts : List (List Char)}
    (h : ∀ part ∈ parts, ∀ c ∈ part, Lines.isBreak c = false) :
    ∀ c ∈ List.intercalate [' '] parts, Lines.isBreak c = false := by
  induction parts with
  | nil => simp
  | cons part parts ih =>
    cases parts with
    | nil => simpa [List.intercalate_singleton] using h
    | cons next parts =>
      intro c hc
      rw [List.intercalate_cons_cons, List.append_assoc] at hc
      rcases List.mem_append.1 hc with hc | hc
      · exact h part (by simp) c hc
      · rcases List.mem_append.1 hc with hc | hc
        · rw [List.mem_singleton.1 hc]
          decide
        · exact ih (fun p hp => h p (by simp [hp])) c hc

theorem Clause.oneLine (c : Clause) : ∀ d ∈ c.line, Lines.isBreak d = false := by
  intro d hd
  have ha : ∀ d ∈ c.argumentText, Lines.isBreak d = false := by
    refine oneLine_intercalate fun part hp => ?_
    obtain ⟨a, -, rfl⟩ := List.mem_map.1 hp
    exact a.oneLine
  obtain ⟨-, -, hk⟩ := keyword_letters c.kind
  obtain hd | rfl | hd : d ∈ c.kind.keyword.toList ∨ d = ' ' ∨ d ∈ c.argumentText := by
    simpa [Clause.line] using hd
  · exact isBreak_of_not_isBlank (hk d hd).2
  · decide
  · exact ha d hd

theorem Entry.oneLine (e : Entry) : ∀ line ∈ e.lines, ∀ c ∈ line, Lines.isBreak c = false := by
  have hn : ∀ c ∈ ([] : Line), Lines.isBreak c = false := by simp
  cases e with
  | stage image =>
    have hk : ∀ c ∈ "FROM".toList, Lines.isBreak c = false :=
      List.all_iff_forall_prop.1 (by decide)
    have hf : ∀ c ∈ "FROM".toList ++ ' ' :: image.chars, Lines.isBreak c = false := by
      intro c hc
      obtain hc | rfl | hc : c ∈ "FROM".toList ∨ c = ' ' ∨ c ∈ image.chars := by
        simpa only [List.mem_append, List.mem_cons] using hc
      · exact hk c hc
      · decide
      · exact image.oneLine c hc
    intro line hl
    obtain rfl | rfl : line = _ ∨ line = [] := by simpa only [Entry.lines, List.mem_cons,
      List.not_mem_nil, or_false] using hl
    · exact hf
    · exact hn
  | clause c =>
    intro line hl
    obtain ⟨comment, -, rfl⟩ | rfl | rfl :
        (∃ comment ∈ c.comments, comment.chars = line) ∨ line = c.line ∨ line = [] := by
      simpa [Entry.lines] using hl
    · exact comment.oneLine
    · exact c.oneLine
    · exact hn

end Written

namespace Dockerfile

open Written

/-- Reading undoes writing: the file that is written for a list of entries has exactly their
instructions, each with its declarations, its comments, its line and its stage. -/
theorem parse_file (entries : List Entry) :
    Dockerfile.parse (file entries) =
      { instructions := Written.instructions 1 0 entries
        stages := Written.stages entries
        notes := [] } := by
  have hl : ∀ line ∈ [] :: entries.flatMap Entry.lines, ∀ c ∈ line, Lines.isBreak c = false := by
    intro line hl
    rcases List.mem_cons.1 hl with rfl | hl
    · simp
    · obtain ⟨e, -, he⟩ := List.mem_flatMap.1 hl
      exact e.oneLine line he
  have hr : Reader.run {} ([] :: entries.flatMap Entry.lines) = events 1 0 entries := by
    rw [Reader.run_cons, Reader.step_blank rfl rfl]
    exact run_entries entries 1 0
  rw [Dockerfile.parse, file, String.toList_ofList, Lines.split_terminated _ hl, Dockerfile.ofLines,
    hr]
  have hi := (Reader.ofEvents_instructions (events 1 0 entries)).trans
    (instructions_events entries 1 0)
  have hn := notes_events entries 1 0
  have hs := count_stage_events entries 1 0
  exact congr (congr (congrArg Dockerfile.mk hi) hs) hn

/-- A value may hold quotes, backslashes, equals signs and number signs. -/
example :
    file [.clause ⟨.env, [], [⟨⟨"A".toList, by decide, List.all_eq_true.1 (by decide)⟩,
      some ⟨"a \"b\" \\ # = 'c".toList, List.all_iff_forall_prop.1 (by decide)⟩⟩],
      by decide, by decide⟩] =
      "\nENV A=\"a \\\"b\\\" \\\\ # = 'c\"\n\n" := by decide

end Dockerfile
end ContainerDocs

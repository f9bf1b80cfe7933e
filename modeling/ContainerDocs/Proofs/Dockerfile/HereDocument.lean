import ContainerDocs.Proofs.Dockerfile.Alike
import ContainerDocs.Proofs.Dockerfile.Escape
import ContainerDocs.Proofs.Dockerfile.Opener
import Mathlib.Data.Bool.AllAny

/-!
# Here-documents

The body of a here-document changes nothing: the instruction that opens it is read as one with other
arguments, and what stands below has only moved. A `<<` between quotes opens a here-document just as
a bare one does.

## Main definitions

* `Reader.State.opened` — the reader after an instruction that may open a here-document.
* `Reader.quotedLine` — an instruction with a text between single quotes.

## Main statements

* `Reader.step_document` — an instruction that may open a here-document brings nothing else.
* `Dockerfile.parse_hereDocument` — a here-document only moves what stands below it.
* `Dockerfile.parse_unclosed`, `Dockerfile.parse_quoted_unclosed` — a here-document without its
  last line hides what stands below it.
* `Dockerfile.parse_quoted` — a text between quotes counts as far as it holds an opener.
-/

namespace ContainerDocs
namespace Reader

/-! ## Instructions that may open a here-document -/

theorem of_mem_documentKeywords {keyword : Line} (h : keyword ∈ documentKeywords) :
    keyword ≠ [] ∧ keyword.map upperLetter = keyword ∧ keyword.head? ≠ some '#' ∧
      keyword ≠ "FROM".toList ∧ Kind.ofKeyword? (String.ofList keyword) = none := by
  obtain rfl | rfl | rfl : keyword = "RUN".toList ∨ keyword = "COPY".toList ∨
      keyword = "ADD".toList := by simpa [documentKeywords] using h
  all_goals decide

theorem letters_of_mem_documentKeywords {keyword : Line} (h : keyword ∈ documentKeywords) :
    ∀ c ∈ keyword, isLetter c = true ∧ Blank.isBlank c = false := by
  obtain rfl | rfl | rfl : keyword = "RUN".toList ∨ keyword = "COPY".toList ∨
      keyword = "ADD".toList := by simpa [documentKeywords] using h
  all_goals exact List.all_iff_forall_prop.1 (by decide)

/-- The reader after an instruction whose arguments open a here-document or not. -/
def State.opened (st : State) (name? : Option Line) : State :=
  { st with
    line := st.line + 1
    comments := []
    preamble := false
    mode := name?.elim .ready .hereDocument }

/-- An instruction that may open a here-document does nothing else. -/
theorem complete_document (st : State) (first : Nat) (opening : Line) {pieces : List Line}
    {keyword arguments : Line} (hd : keyword ∈ documentKeywords)
    (hk : keyword? (joinPieces pieces) = some (keyword, arguments)) :
    complete st first opening pieces =
      ({ st.done with mode := (hereDocument? arguments).elim .ready .hereDocument }, []) := by
  obtain ⟨-, -, -, hf, ho⟩ := of_mem_documentKeywords hd
  have hc : documentKeywords.contains keyword = true := List.contains_iff_mem.2 hd
  simp only [complete, hk, if_neg hf, hc, if_true, ho]
  cases hereDocument? arguments <;> rfl

/-- The line of an instruction that may open a here-document. -/
theorem step_document {st : State} (hm : st.mode = .ready) {keyword text : Line}
    (hd : keyword ∈ documentKeywords) (ht : Blank.stripRight text ≠ [])
    (he : (Blank.stripRight (keyword ++ ' ' :: text)).getLast? ≠ some st.escape) :
    step st (keyword ++ ' ' :: text) = (st.opened (hereDocument? text), []) := by
  obtain ⟨hne, hu, hhead, -, -⟩ := of_mem_documentKeywords hd
  have hl := letters_of_mem_documentKeywords hd
  have hfront : ∀ rest : Line, (keyword ++ rest).head? = keyword.head? :=
    fun rest => List.head?_append_of_ne_nil _ hne
  have hstrip : Blank.strip (keyword ++ ' ' :: text) = keyword ++ ' ' :: Blank.stripRight text := by
    have hblank : ∀ c ∈ (keyword ++ ' ' :: text).head?, Blank.isBlank c = false := by
      rw [hfront]
      exact fun c hc => (hl c (List.mem_of_mem_head? hc)).2
    rw [Blank.strip, Blank.trim, Blank.dropWhile_eq_self hblank, List.append_cons,
      Blank.trimRight_append_of_ne_nil ht, ← List.append_cons, Blank.stripRight]
  have hb : isBlankLine (keyword ++ ' ' :: text) = false := by simp [isBlankLine, hstrip]
  have hc : isComment (keyword ++ ' ' :: text) = false := by
    rw [isComment, hstrip, hfront]
    simpa using hhead
  have hk : keyword? (joinPieces [Blank.stripRight (keyword ++ ' ' :: text)]) =
      some (keyword, Blank.strip text) := by
    rw [joinPieces_stripRight hb, hstrip, keyword?_append hne hl, hu, Blank.strip_stripRight]
  rw [step_complete hm hb hc he, complete_document _ _ _ hd hk, hereDocument?_strip]
  rfl

/-- The line of an instruction whose arguments are one word. -/
theorem step_document_whole {st : State} (hm : st.mode = .ready) {keyword text : Line}
    (hd : keyword ∈ documentKeywords) (hw : Whole st.escape text) :
    step st (keyword ++ ' ' :: text) = (st.opened (hereDocument? text), []) := by
  obtain ⟨c, hc, -, he⟩ := hw.last
  refine step_document hm hd (by rw [hw.stripRight_eq]; exact hw.ne_nil) ?_
  rw [Blank.stripRight, List.append_cons,
    Blank.trimRight_append_of_ne_nil
      (by rw [← Blank.stripRight, hw.stripRight_eq]; exact hw.ne_nil),
    ← Blank.stripRight, hw.stripRight_eq, List.getLast?_append_of_ne_nil _ hw.ne_nil, hc]
  simpa using he

/-! ## Bodies -/

/-- The body of a here-document changes nothing. -/
theorem after_body (st : State) {terminator : Line} (hm : st.mode = .hereDocument terminator)
    {body : List Line} (hb : ∀ line ∈ body, Blank.strip line ≠ terminator) :
    after st body = { st with line := st.line + body.length } ∧ found st body = [] := by
  induction body generalizing st with
  | nil => exact ⟨rfl, rfl⟩
  | cons line body ih =>
    have hstep := step_body hm (hb line List.mem_cons_self)
    obtain ⟨hafter, hfound⟩ := ih { st with line := st.line + 1 } hm
      fun l hl => hb l (List.mem_cons_of_mem _ hl)
    rw [after_cons, found, hstep]
    exact ⟨by rw [hafter, List.length_cons, Nat.add_right_comm, Nat.add_assoc], hfound⟩

theorem IsName.whole {name : Line} (h : IsName name) {escape : Char} (he : IsEscapeChar escape) :
    Whole escape name := by
  refine .of_forall h.ne_nil fun c hc => ⟨h.not_blank c hc, ?_⟩
  rintro rfl
  have hn := isNameChar_iff.1 (h.chars c hc)
  obtain rfl | he := he
  · exact absurd hn (by decide)
  · omega

theorem IsName.whole_opener {name : Line} (h : IsName name) {escape : Char}
    (he : IsEscapeChar escape) : Whole escape ('<' :: '<' :: name) := by
  obtain ⟨c, hc, hlast⟩ := (h.whole he).last
  refine ⟨⟨'<', rfl, by decide⟩, c, ?_, hlast⟩
  rwa [show '<' :: '<' :: name = ['<', '<'] ++ name from rfl,
    List.getLast?_append_of_ne_nil _ h.ne_nil]

theorem hereDocument?_name {name : Line} (h : IsName name) :
    hereDocument? ('<' :: '<' :: name) = some name := by
  rw [hereDocument?_cons_cons, openerName?_eq_some_iff.2, Option.some_or]
  exact ⟨[], [], [], [], .inl rfl, by simp, .inl rfl, h, by simp, by simp⟩

/-- The lines of a here-document: its opener, its body and its last line. -/
def documentLines (keyword name : Line) (body : List Line) (closing : Line) : List Line :=
  (keyword ++ ' ' :: '<' :: '<' :: name) :: (body ++ [closing])

/-- A reader is left alike by a here-document and by an instruction with other arguments, and finds
nothing in both. -/
theorem document_alike (st : State) (hm : st.mode = .ready) (he : IsEscapeChar st.escape)
    {keyword name closing : Line} {body : List Line} (hd : keyword ∈ documentKeywords)
    (hn : IsName name) (hb : ∀ line ∈ body, Blank.strip line ≠ name)
    (hc : Blank.strip closing = name) :
    AlikeAfter (st.line + 1) (body.length + 1) 0 st.stages
      (after st [keyword ++ [' ', 'x']], found st [keyword ++ [' ', 'x']])
      (after st (documentLines keyword name body closing),
        found st (documentLines keyword name body closing)) := by
  have hx : IsName ['x'] := ⟨⟨'x', rfl, by decide⟩, List.forall_mem_singleton.2 rfl⟩
  have hplain : step st (keyword ++ [' ', 'x']) = (st.opened none, []) :=
    step_document_whole hm hd (hx.whole he)
  have hopen : step st (keyword ++ ' ' :: '<' :: '<' :: name) = (st.opened (some name), []) := by
    rw [step_document_whole hm hd (hn.whole_opener he), hereDocument?_name hn]
  obtain ⟨hbody, hbody'⟩ := after_body (st.opened (some name)) rfl hb
  have hclose : step { st.opened (some name) with line := st.line + 1 + body.length } closing =
      ({ st.opened none with line := st.line + 1 + body.length + 1 }, []) :=
    step_terminator rfl hc
  have hdocument : (after st (documentLines keyword name body closing),
      found st (documentLines keyword name body closing)) =
        ({ st.opened none with line := st.line + 1 + body.length + 1 }, []) := by
    rw [documentLines, after_cons, found, hopen, after_append, found_append, hbody, hbody',
      List.nil_append, List.nil_append, after_found_singleton]
    exact hclose
  rw [after_found_singleton, hplain, hdocument]
  exact ⟨⟨rfl, rfl, rfl, rfl, rfl, Nat.le_refl _, .ready⟩, .nil, rfl⟩

/-! ## Quoted texts -/

/-- The line of a `RUN` instruction with a text between single quotes. -/
def quotedLine (front text back : Line) : Line :=
  "RUN ".toList ++ (front ++ " '".toList ++ (text ++ ("' ".toList ++ back)))

/-- A text between single quotes is searched as if it stood alone. -/
theorem hereDocument?_quoted {front back : Line} (hf : ¬ ['<', '<'] <:+: front)
    (hb : ¬ ['<', '<'] <:+: back) (text : Line) :
    hereDocument? (front ++ " '".toList ++ (text ++ ("' ".toList ++ back))) =
      hereDocument? text := by
  have hback : hereDocument? ("' ".toList ++ back) = none := by
    rw [hereDocument?_append_of_notMem (by decide), ← List.append_nil back,
      hereDocument?_append_left hb (by simp)]
    rfl
  have hcloses : Closes ("' ".toList ++ back) := Closes.of_quote rfl (by simpa using by decide)
  rw [List.append_assoc, hereDocument?_append_left hf (by simp),
    hereDocument?_append_of_notMem (by decide), hereDocument?_append_right hcloses hback]

/-- A text between single quotes opens what it would open if it stood alone. -/
theorem step_quotedLine {st : State} (hm : st.mode = .ready) {front text back : Line}
    (hfront : ¬ ['<', '<'] <:+: front) (hback : ¬ ['<', '<'] <:+: back)
    (he : (Blank.stripRight (quotedLine front text back)).getLast? ≠ some st.escape) :
    step st (quotedLine front text back) = (st.opened (hereDocument? text), []) := by
  rw [← hereDocument?_quoted hfront hback text]
  refine step_document hm List.mem_cons_self (fun hnil => ?_) he
  exact absurd (Blank.trimRight_eq_nil_iff.1 hnil '\'' (by simp)) (by decide)

end Reader

namespace Dockerfile

open Reader

/-- A here-document only moves what stands below it: the instruction that opens it is read as one
with other arguments. -/
theorem parse_hereDocument (content plain : String) (before body rest : List Line)
    (keyword name closing : Line) (hkeyword : keyword ∈ documentKeywords) (hname : IsName name)
    (hbody : ∀ line ∈ body, Blank.strip line ≠ name) (hclosing : Blank.strip closing = name)
    (hvisited : (after {} before).mode = .ready)
    (hcontent : Lines.split content.toList =
      before ++ (documentLines keyword name body closing ++ rest))
    (hplain : Lines.split plain.toList = before ++ (keyword ++ [' ', 'x']) :: rest) :
    (parse content).instructions =
        (parse plain).instructions.map (movedBelow (before.length + 1) (body.length + 1)) ∧
      (parse content).stages = (parse plain).stages := by
  have hescape : IsEscapeChar (after {} before).escape := isEscapeChar_after (.inl rfl) before
  have hline : (after {} before).line = before.length :=
    (invariant_after invariant_start before).line
  have halike : AlikeAfter (before.length + [keyword ++ [' ', 'x']].length) (body.length + 1) 0
      (after {} before).stages
      (after (after {} before) [keyword ++ [' ', 'x']],
        found (after {} before) [keyword ++ [' ', 'x']])
      (after (after {} before) (documentLines keyword name body closing),
        found (after {} before) (documentLines keyword name body closing)) := by
    rw [List.length_singleton, ← hline]
    exact document_alike _ hvisited hescape hkeyword hname hbody hclosing
  rw [parse, parse, hcontent, hplain]
  exact ofLines_exchange hvisited halike

/-- A body of comments, stages, instructions and other openers. -/
theorem parse_hereDocument_of_any_body :
    let content :=
      "FROM a\n# note\nCOPY <<E_1\n# c\n\nFROM b\nENV A=1 \\\nRUN <<F\nE_1 x\n E_1\nARG B\n"
    let plain := "FROM a\n# note\nCOPY x\nARG B\n"
    let before : List Line := ["FROM a".toList, "# note".toList]
    let body : List Line := ["# c".toList, [], "FROM b".toList, "ENV A=1 \\".toList,
      "RUN <<F".toList, "E_1 x".toList]
    let name : Line := "E_1".toList
    "COPY".toList ∈ documentKeywords ∧ IsName name ∧
      (∀ line ∈ body, Blank.strip line ≠ name) ∧
      (after {} before).mode = .ready ∧
      Lines.split content.toList =
        before ++ (documentLines "COPY".toList name body (' ' :: name) ++ ["ARG B".toList]) ∧
      Lines.split plain.toList = before ++ ("COPY".toList ++ [' ', 'x']) :: ["ARG B".toList] ∧
      (parse content).instructions = (parse plain).instructions.map (movedBelow 3 7) ∧
      (parse content).stages = (parse plain).stages := by
  intro content plain before body name
  have hname : IsName name := ⟨⟨'E', rfl, by decide⟩, List.all_iff_forall_prop.1 (by decide)⟩
  have hbody : ∀ line ∈ body, Blank.strip line ≠ name := by decide
  have hvisited : (after {} before).mode = .ready := by decide
  have hcontent : Lines.split content.toList =
      before ++ (documentLines "COPY".toList name body (' ' :: name) ++ ["ARG B".toList]) := by
    decide
  have hplain : Lines.split plain.toList =
      before ++ ("COPY".toList ++ [' ', 'x']) :: ["ARG B".toList] := by decide
  exact ⟨by decide, hname, hbody, hvisited, hcontent, hplain,
    parse_hereDocument content plain before body ["ARG B".toList] "COPY".toList name (' ' :: name)
      (by decide) hname hbody (by decide) hvisited hcontent hplain⟩

/-- An instruction that opens a here-document without a last line is the last one that is read. -/
theorem ofLines_unclosed {before rest : List Line} {line name : Line}
    (hvisited : (after {} before).mode = .ready)
    (hline : step (after {} before) line = ((after {} before).opened (some name), []))
    (hrest : ∀ l ∈ rest, Blank.strip l ≠ name) :
    ofLines (before ++ line :: rest) = ofLines before := by
  obtain ⟨hafter, hfound⟩ := after_body ((after {} before).opened (some name)) rfl hrest
  have hbelow := run_append ((after {} before).opened (some name)) rest []
  rw [List.append_nil, hfound, hafter] at hbelow
  rw [ofLines, ofLines, run_append, run_cons, hline, hbelow, run_eq_found hvisited]
  exact congrArg ofEvents (List.append_nil _)

/-- A here-document without its last line hides all that stands below it, whatever that is. -/
theorem parse_unclosed (content plain : String) (before rest : List Line) (keyword name : Line)
    (hkeyword : keyword ∈ documentKeywords) (hname : IsName name)
    (hrest : ∀ line ∈ rest, Blank.strip line ≠ name)
    (hvisited : (after {} before).mode = .ready)
    (hcontent : Lines.split content.toList =
      before ++ (keyword ++ ' ' :: '<' :: '<' :: name) :: rest)
    (hplain : Lines.split plain.toList = before) : parse content = parse plain := by
  have hescape : IsEscapeChar (after {} before).escape := isEscapeChar_after (.inl rfl) before
  have hline : step (after {} before) (keyword ++ ' ' :: '<' :: '<' :: name) =
      ((after {} before).opened (some name), []) := by
    rw [step_document_whole hvisited hkeyword (hname.whole_opener hescape),
      hereDocument?_name hname]
  rw [parse, parse, hcontent, hplain, ofLines_unclosed hvisited hline hrest]

/-- So does an opener between single quotes. -/
theorem parse_quoted_unclosed (content plain : String) (before rest : List Line)
    (front text back name : Line) (hfront : ¬ ['<', '<'] <:+: front)
    (hback : ¬ ['<', '<'] <:+: back) (hname : hereDocument? text = some name)
    (hrest : ∀ line ∈ rest, Blank.strip line ≠ name)
    (hvisited : (after {} before).mode = .ready)
    (hescape : (Blank.stripRight (quotedLine front text back)).getLast? ≠
      some (after {} before).escape)
    (hcontent : Lines.split content.toList = before ++ quotedLine front text back :: rest)
    (hplain : Lines.split plain.toList = before) : parse content = parse plain := by
  have hline := step_quotedLine hvisited hfront hback hescape
  rw [hname] at hline
  rw [parse, parse, hcontent, hplain, ofLines_unclosed hvisited hline hrest]

/-- Lines that do the same are read the same. -/
theorem ofLines_congr {before rest : List Line} {line line' : Line}
    (h : step (after {} before) line = step (after {} before) line') :
    ofLines (before ++ line :: rest) = ofLines (before ++ line' :: rest) := by
  rw [ofLines, ofLines, run_append, run_append, run_cons, run_cons, h]

/-- A text between single quotes counts for nothing unless it holds an opener, and one that holds an
opener is read as the opener is: the lines down to its name are passed over. -/
theorem parse_quoted (content : String) (before rest : List Line) (front text back : Line)
    (hfront : ¬ ['<', '<'] <:+: front) (hback : ¬ ['<', '<'] <:+: back)
    (hvisited : (after {} before).mode = .ready)
    (hescape : (Blank.stripRight (quotedLine front text back)).getLast? ≠
      some (after {} before).escape)
    (hcontent : Lines.split content.toList = before ++ quotedLine front text back :: rest) :
    (¬ HasOpener text → ∀ plain : String,
      Lines.split plain.toList = before ++ "RUN x".toList :: rest →
        parse content = parse plain) ∧
    (HasOpener text → ∃ name, IsName name ∧ hereDocument? text = some name ∧ ∀ document : String,
      Lines.split document.toList = before ++ ("RUN <<".toList ++ name) :: rest →
        parse content = parse document) := by
  have hchar : IsEscapeChar (after {} before).escape := isEscapeChar_after (.inl rfl) before
  have hrun : "RUN".toList ∈ documentKeywords := List.mem_cons_self
  have hquoted := step_quotedLine hvisited hfront hback hescape
  constructor
  · intro hnone plain hplain
    have hsearch : hereDocument? text = none := by
      by_contra hsome
      exact hnone (hasOpener_iff.2 (Option.ne_none_iff_exists'.1 hsome))
    have hx : IsName ['x'] := ⟨⟨'x', rfl, by decide⟩, List.forall_mem_singleton.2 rfl⟩
    have hstep : step (after {} before) "RUN x".toList = ((after {} before).opened none, []) :=
      step_document_whole hvisited hrun (hx.whole hchar)
    rw [parse, parse, hcontent, hplain]
    exact ofLines_congr (by rw [hquoted, hsearch, hstep])
  · intro hsome
    obtain ⟨name, hsearch⟩ := hasOpener_iff.1 hsome
    have hname := isName_of_hereDocument? hsearch
    refine ⟨name, hname, hsearch, fun document hdocument => ?_⟩
    have hstep : step (after {} before) ("RUN <<".toList ++ name) =
        ((after {} before).opened (some name), []) := by
      rw [← hereDocument?_name hname]
      exact step_document_whole hvisited hrun (hname.whole_opener hchar)
    rw [parse, parse, hcontent, hdocument]
    exact ofLines_congr (by rw [hquoted, hsearch, hstep])

/-- A quoted shift hides nothing, and a quoted opener is read as a bare one. -/
theorem parse_quoted_of_shift :
    let shift := "RUN echo '1 << 2' \nENV A=1\n"
    let opener := "RUN cc 'cout <<y' f\nENV A=1\ny\nENV B=2\n"
    ¬ ['<', '<'] <:+: "echo".toList ∧ ¬ ['<', '<'] <:+: "cc".toList ∧
      ¬ ['<', '<'] <:+: "f".toList ∧ ¬ ['<', '<'] <:+: [] ∧
      (after {} []).mode = .ready ∧
      (Blank.stripRight (quotedLine "echo".toList "1 << 2".toList [])).getLast? ≠
        some (after {} []).escape ∧
      (Blank.stripRight (quotedLine "cc".toList "cout <<y".toList "f".toList)).getLast? ≠
        some (after {} []).escape ∧
      Lines.split shift.toList =
        [] ++ quotedLine "echo".toList "1 << 2".toList [] :: ["ENV A=1".toList] ∧
      Lines.split opener.toList = [] ++ quotedLine "cc".toList "cout <<y".toList "f".toList ::
        ["ENV A=1".toList, ['y'], "ENV B=2".toList] ∧
      parse shift = parse "RUN x\nENV A=1\n" ∧
      parse opener = parse "RUN <<y\nENV A=1\ny\nENV B=2\n" := by
  intro shift opener
  have hvisited : (after {} []).mode = .ready := rfl
  have hecho : ¬ ['<', '<'] <:+: "echo".toList := by decide
  have hcc : ¬ ['<', '<'] <:+: "cc".toList := by decide
  have hfile : ¬ ['<', '<'] <:+: "f".toList := by decide
  have hnil : ¬ ['<', '<'] <:+: [] := by decide
  have hshift : Lines.split shift.toList =
      [] ++ quotedLine "echo".toList "1 << 2".toList [] :: ["ENV A=1".toList] := by decide
  have hopener : Lines.split opener.toList =
      [] ++ quotedLine "cc".toList "cout <<y".toList "f".toList ::
        ["ENV A=1".toList, ['y'], "ENV B=2".toList] := by decide
  have hescape : (Blank.stripRight (quotedLine "echo".toList "1 << 2".toList [])).getLast? ≠
      some (after {} []).escape := by decide
  have hescape' :
      (Blank.stripRight (quotedLine "cc".toList "cout <<y".toList "f".toList)).getLast? ≠
        some (after {} []).escape := by decide
  have hfree : ¬ HasOpener "1 << 2".toList := by
    rw [hasOpener_iff]
    rintro ⟨name, hname⟩
    have hnone : hereDocument? "1 << 2".toList = none := by decide
    rw [hnone] at hname
    cases hname
  have hheld : HasOpener "cout <<y".toList :=
    hasOpener_iff.2 ⟨['y'], by decide⟩
  obtain ⟨hplain, -⟩ := parse_quoted shift [] ["ENV A=1".toList] "echo".toList "1 << 2".toList []
    hecho hnil hvisited hescape hshift
  obtain ⟨-, hdocument⟩ := parse_quoted opener [] ["ENV A=1".toList, ['y'], "ENV B=2".toList]
    "cc".toList "cout <<y".toList "f".toList hcc hfile hvisited hescape' hopener
  obtain ⟨name, -, hname, hdocument⟩ := hdocument hheld
  obtain rfl : ['y'] = name := by
    have hy : hereDocument? "cout <<y".toList = some ['y'] := by decide
    exact Option.some_inj.1 (hy.symm.trans hname)
  exact ⟨hecho, hcc, hfile, hnil, hvisited, hescape, hescape', hshift, hopener,
    hplain hfree _ (by decide), hdocument _ (by decide)⟩

/-- A quoted `<<` in front of a name makes the instruction below it disappear. -/
theorem parse_quoted_hides_instruction :
    Lines.split "RUN cc 'cout <<y' f\nENV A=1\n".toList =
        [] ++ quotedLine "cc".toList "cout <<y".toList "f".toList :: ["ENV A=1".toList] ∧
      (∀ c ∈ ['\'', '"'], c ∉ "cc".toList ++ "cout <<y".toList ++ "f".toList) ∧
      ¬ ['<', '<'] <:+: "cc".toList ∧ ¬ ['<', '<'] <:+: "f".toList ∧
      (after {} []).mode = .ready ∧
      (Blank.stripRight (quotedLine "cc".toList "cout <<y".toList "f".toList)).getLast? ≠
        some (after {} []).escape ∧
      (parse "RUN cc 'cout <<y' f\nENV A=1\n").instructions = [] ∧
      (parse "RUN x\nENV A=1\n").instructions =
        [{ kind := .env
           declarations := [⟨"A", some "1"⟩]
           line := 2
           text := "ENV A=1" }] := by
  refine ⟨?_, by simp, ?_, ?_, ?_, ?_, ?_, ?_⟩
  all_goals decide

end Dockerfile
end ContainerDocs

import ContainerDocs.Proofs.Program.Document
import ContainerDocs.Proofs.Report.Shown

/-!
# Documenting again

A run on the document that an earlier run has left finds the section that was written, but it takes
the first end marker for its end. A description that holds an end marker gets into the report as it
is, so that the rest of the report then counts as text after the section.

## Main statements

* `Generate.exec_document_builtin` — without an image, a report depends on the Dockerfile only.
* `Generate.intoDocument_again` — when a report that is put in again leaves the document as it is.
* `Generate.document_again` — when a second run leaves the document as it is.
* `Generate.document_again_appends` — a run that does not leave it as it is.
-/

namespace ContainerDocs

open Run Encoding Lines

variable {w w' : World} {m m' m₁ : Machine}

/-- The end marker of a section without a name is a tag. -/
theorem Section.isTag_endMarker : IsTag (Text.ofString (Section.endMarker "")) := by
  have hforeign : fenceChars.all (fun c =>
      !(Text.ofString (Section.endMarker "")).contains (CodePoint.ofChar c)) = true := by
    decide +kernel
  refine ⟨by decide +kernel, by decide +kernel, fun c hc hmem => ?_⟩
  simpa [hmem] using List.all_eq_true.1 hforeign c hc

/-- An end marker does not get lost at the ends of a report. -/
theorem Section.infix_body_iff (report : Text) :
    Text.ofString (endMarker "") <:+: body report ↔ Text.ofString (endMarker "") <:+: report := by
  refine infix_trim_iff isTag_endMarker.ne_nil (fun c hc => ?_) report
  rw [of_decide_eq_true hc]
  exact isTag_endMarker.isInert ['\n'] rfl _ List.mem_cons_self

/-- What a second run leaves behind the section: the text between the first end marker of the
report and the end of the section, with the end marker that closed it. -/
def Section.remainder (report : Text) : Text :=
  match cut? (Text.ofString (endMarker "")) (body report) with
  | none => []
  | some (_, rest) => rest ++ ("\n" ++ Text.ofString (endMarker ""))

theorem Section.remainder_eq_nil_iff (report : Text) :
    remainder report = [] ↔ ¬ Text.ofString (endMarker "") <:+: report := by
  rw [← infix_body_iff, ← cut?_eq_none_iff, remainder]
  cases cut? (Text.ofString (endMarker "")) (body report) with
  | none => simp
  | some parts => simp [(ofString_marker_ne_nil "").2]

/-! ## The report of a Dockerfile -/

namespace Run

/-- Notes change nothing but the notes. -/
theorem exists_notes_of_forM {α : Type} (as : List α) (level : Level) (text : α → String)
    (w : World) (m : Machine) : ∃ notes, exec (as.forM fun a => note level (text a)) w m =
      (.ok (), { m with notes := notes }) := by
  induction as generalizing m with
  | nil => exact ⟨m.notes, rfl⟩
  | cons a as ih => exact ih { m with notes := (level, text a) :: m.notes }

end Run

namespace Steps

/-- The documentation of a Dockerfile is that of its text. -/
theorem exec_documentation {path source : String}
    (h : m.files.readText w.place path = .ok source) :
    ∃ notes, exec (documentation path) w m =
      (.ok (Dockerfile.parse source).documentation, { m with notes := notes }) := by
  obtain ⟨notes, hnotes⟩ := exists_notes_of_forM (Dockerfile.parse source).notes .debug
    (·.message) w m
  obtain ⟨notes', hnotes'⟩ := exists_notes_of_forM
    (Documentation.notes (Dockerfile.parse source).instructions) .debug (·.message) w
    { m with notes := notes }
  rw [documentation, exec_bind, exec_readText, h]
  dsimp only [debug]
  rw [exec_bind, hnotes]
  dsimp only
  rw [exec_bind, hnotes']
  exact ⟨_, rfl⟩

theorem exists_readText_of_documentation {path : String} {d : Documentation}
    (h : exec (documentation path) w m = (.ok d, m')) :
    ∃ source, m.files.readText w.place path = .ok source := by
  obtain ⟨r, m₂, hr, h⟩ := exec_bind_eq_ok.1 h
  rw [exec_readText] at hr
  rcases hread : m.files.readText w.place path with (e | e) | source <;> rw [hread] at hr <;>
    cases hr
  · cases h
  · exact ⟨source, rfl⟩

section Builtin

variable {s : Selection} {b : Builtin} {t : Template} {d : Documentation}
  {stats : Option ImageStats} {options : ReportOptions}

theorem format_builtin (hfile : s.file? = none) (hb : Builtin.find? s.builtinName = some b) :
    s.format = b.format := by
  rw [Selection.format, hfile, hb]
  rfl

/-- A template that comes with the program is there without a look at the files. -/
theorem exec_template_builtin (hfile : s.file? = none) (hb : Builtin.find? s.builtinName = some b)
    (ht : Template.ofSegments? (b.segments .image) = some t) (w : World) (m : Machine) :
    exec (template s .image) w m = (.ok t, m) := by
  rw [template, hfile]
  dsimp only
  rw [Report.builtinTemplate, hb]
  dsimp only
  rw [ht]
  rfl

/-- A template that comes with the program prints a report without a look at the files. -/
theorem exec_imageReport_builtin {data : Json} {report : Text} (hfile : s.file? = none)
    (hb : Builtin.find? s.builtinName = some b)
    (ht : Template.ofSegments? (b.segments .image) = some t)
    (hdata : Report.imageData d.items stats = .ok data)
    (hreport : t.render (b.format == .html) (Report.imageValues d stats options data) = .ok report)
    (w : World) (m : Machine) :
    ∃ notes,
      exec (imageReport d stats options s) w m = (.ok report, { m with notes := notes }) := by
  have hvalues : Report.imageValues? d stats options =
      .ok (Report.imageValues d stats options data) := by
    rw [Report.imageValues?, hdata]
  have hprint : Report.print t s.format (Report.imageValues d stats options data) = .ok report := by
    rw [Report.print, format_builtin hfile hb, hreport]
  rw [imageReport, exec_bind, exec_template_builtin hfile hb ht]
  dsimp only
  rw [exec_bind, hvalues, exec_ofExcept]
  dsimp only
  rw [hprint]
  exact ⟨_, rfl⟩

end Builtin

end Steps

namespace Generate

variable {o : GenerateOptions} {b : Builtin}

theorem exists_notes_of_noteTemplate (o : GenerateOptions) (s : Selection) (type : String)
    (w : World) (m : Machine) :
    ∃ notes, exec (noteTemplate o s type) w m = (.ok (), { m with notes := notes }) := by
  rw [noteTemplate]
  split_ifs
  · exact ⟨_, rfl⟩
  · exact ⟨m.notes, rfl⟩

/-- Without an image, a built-in Markdown template makes one report of a Dockerfile, whatever the
machine. A tag is in it exactly if an item shows the tag. -/
theorem exec_document_builtin (himage : o.image = "") (hwrites : o.dryRun = false)
    (hfile : (Selection.resolve o.template none).file? = none)
    (hb : Builtin.find? (Selection.resolve o.template none).builtinName = some b)
    (hformat : b.format = .markdown) (source : String) :
    ∃ report,
      (∀ p, IsTag p → (p <:+: report ↔ ∃ i ∈ (Dockerfile.parse source).documentation.items,
        ∃ s ∈ Markdown.shown b.name i, p <:+: s)) ∧
      ∀ w m, m.files.readText w.place o.dockerfile = .ok source →
        ∃ notes, exec (document o) w m =
          exec (intoDocument o.output report) w { m with notes := notes } := by
  let d := (Dockerfile.parse source).documentation
  let options : ReportOptions := ⟨o.noSymbols, o.badgeUrl.getD ""⟩
  obtain ⟨t, ht, hrender⟩ := Markdown.exists_image_template hb hformat
  obtain ⟨data, hdata⟩ : ∃ data, Report.imageData d.items none = .ok data := ⟨_, rfl⟩
  obtain ⟨report, hreport, htags⟩ := hrender d options data
  have hown : OutputPath.isOwnFile (Selection.resolve o.template none).format = false := by
    rw [Steps.format_builtin hfile hb, hformat]
    rfl
  refine ⟨report, htags, fun w m hread => ?_⟩
  obtain ⟨notes₁, hd⟩ := Steps.exec_documentation hread
  obtain ⟨notes₂, hnote⟩ := exists_notes_of_noteTemplate o (Selection.resolve o.template none)
    Config.imageType w { m with notes := notes₁ }
  obtain ⟨notes₃, himageReport⟩ := Steps.exec_imageReport_builtin hfile hb ht hdata
    (by rw [hformat]; exact hreport) w { m with notes := notes₂ }
  refine ⟨notes₃, ?_⟩
  have hempty : o.image.isEmpty = true := by rw [himage]; rfl
  rw [document, exec_bind, hd]
  dsimp only
  rw [if_pos hempty, exec_bind, exec_pure]
  dsimp only
  rw [exec_bind, hnote]
  dsimp only
  rw [exec_bind, himageReport]
  dsimp only
  rw [if_neg (by simp [hwrites]), if_neg (Bool.eq_false_iff.1 hown)]

/-! ## The document that a run has left -/

/-- A report that has bytes can be put into a document that can be read and has the section. -/
theorem exists_of_intoDocument {path : String} {report : Text} {content before after : Bytes}
    {s : String} (hread : m.files.read w.place path = .ok content)
    (hs : decodeString content = .ok s)
    (hregion : Section.outside? content "" = some (before, after))
    (hreport : ∀ c ∈ Section.written "" report, c.isHalf = false) :
    ∃ m', exec (intoDocument path report) w m = (.ok (), m') ∧
      m'.files.read w.place path = .ok (unifyBytes before ++
        bytesOf (Section.written "" report) ++ unifyBytes after) := by
  obtain ⟨x, y, hxy, hx, hy⟩ := Section.exists_region?_unify hs hregion
  have hall : ∀ c ∈ x ++ Section.written "" report ++ y, c.isHalf = false := by
    have hold := Text.isHalf_ofChars (unify s.toList)
    obtain ⟨inside, hd⟩ := Section.exists_inside hxy
    rw [hd] at hold
    simp only [List.forall_mem_append] at hold ⊢
    exact ⟨⟨hold.1.1.1.1, hreport⟩, hold.2⟩
  obtain ⟨files, hwrite⟩ := Files.exists_write_of_read hread
    (bytesOf (x ++ Section.written "" report ++ y))
  have hexec := exec_writeText_eq_ok_iff.2 ⟨hall, files, hwrite, rfl⟩
  refine ⟨{ m with files := files, notes := (.info, "Updated " ++ path) :: m.notes }, ?_, ?_⟩
  · rw [exec_intoDocument hread hs hxy, updateDocument, exec_bind, hexec]
    rfl
  · rw [← hx, ← hy, ← bytesOf_append, ← bytesOf_append]
    exact Files.read_of_write hwrite

/-- A document that a report has been put into was text. -/
theorem exists_decodeString_of_intoDocument {path : String} {report : Text} {content : Bytes}
    (hread : m.files.read w.place path = .ok content)
    (h : exec (intoDocument path report) w m = (.ok (), m')) :
    ∃ s, decodeString content = .ok s := by
  cases hs : decodeString content with
  | ok s => exact ⟨s, rfl⟩
  | error e =>
    rw [intoDocument, exec_bind, readDocument?, exec_bind, exec_readText, Files.readText_eq hread,
      hs] at h
    cases h

/-- The text behind a section, once an end marker stands before the closing one. -/
theorem unifyBytes_remainder (report y : Text) :
    unifyBytes (bytesOf (Section.remainder report ++ y)) =
      unifyBytes (bytesOf (Section.remainder report)) ++ unifyBytes (bytesOf y) := by
  have hplain : Section.IsPlain "" := fun c hc => nomatch hc
  obtain ⟨hreturn, hbreak⟩ := hplain.markers.2.lineEnd_not_mem
  rw [← bytesOf_ofString] at hreturn hbreak
  have hne := Section.bytesOf_ne_nil (Section.ofString_marker_ne_nil "").2
  have hhead : ∀ v : Text,
      (bytesOf (Text.ofString (Section.endMarker "") ++ v)).head? ≠ some 10 := fun v h => by
    rw [bytesOf_append, List.head?_append_of_ne_nil _ hne] at h
    exact hbreak (List.mem_of_mem_head? h)
  -- No line end is torn apart: the marker stands between the rest of the report and what follows.
  have hsplit : ∀ rest v : Text,
      unifyBytes (bytesOf (rest ++ (Text.ofString (Section.endMarker "") ++ v))) =
        unifyBytes (bytesOf rest) ++
          (bytesOf (Text.ofString (Section.endMarker "")) ++ unifyBytes (bytesOf v)) :=
    fun rest v => by
      rw [bytesOf_append, unifyBytes_append (hhead v), bytesOf_append,
        unifyBytes_append_of_not_mem hreturn]
  rw [Section.remainder]
  cases Section.cut? (Text.ofString (Section.endMarker "")) (Section.body report) with
  | none => rfl
  | some parts =>
    dsimp only
    have hnil := hsplit (parts.2 ++ "\n") []
    rw [List.append_nil] at hnil
    rw [← List.append_assoc, List.append_assoc, hsplit, hnil]
    simp [bytesOf]

/-- What is put in again replaces the text up to the first end marker of the report. -/
theorem outside?_of_written {d x y : Text} (h : Section.region? d "" = some (x, y))
    (report : Text) :
    Section.outside? (bytesOf (x ++ Section.written "" report ++ y)) "" =
      some (bytesOf x, bytesOf (Section.remainder report ++ y)) := by
  have hplain : Section.IsPlain "" := fun c hc => nomatch hc
  rw [Section.outside?_bytesOf hplain, List.append_assoc,
    Section.region?_append_written (by simp) h report, Section.remainder]
  cases Section.cut? (Text.ofString (Section.endMarker "")) (Section.body report) with
  | none => rfl
  | some parts => simp

/-- A report that is put in again leaves its remainder behind the section: the document stays as it
is exactly if the report holds no end marker. -/
theorem intoDocument_again {path : String} {report : Text} {content before after : Bytes}
    (hread : m.files.read w.place path = .ok content)
    (hregion : Section.outside? content "" = some (before, after))
    (h : exec (intoDocument path report) w m = (.ok (), m')) (hplace : w'.place = w.place)
    (hfiles : m₁.files = m'.files) :
    m'.files.read w.place path =
        .ok (unifyBytes before ++ bytesOf (Section.written "" report) ++ unifyBytes after) ∧
      ∃ m₂, exec (intoDocument path report) w' m₁ = (.ok (), m₂) ∧
        m₂.files.read w.place path =
          .ok (unifyBytes before ++ bytesOf (Section.written "" report) ++
            (unifyBytes (bytesOf (Section.remainder report)) ++ unifyBytes after)) := by
  obtain ⟨s, hs⟩ := exists_decodeString_of_intoDocument hread h
  obtain ⟨x, y, hxy, hx, hy⟩ := Section.exists_region?_unify hs hregion
  rw [exec_intoDocument hread hs hxy] at h
  obtain ⟨_, m₂, hwrite, hnote⟩ := exec_bind_eq_ok.1 h
  cases hnote
  obtain ⟨hall, files, hfiles', rfl⟩ := exec_writeText_eq_ok_iff.1 hwrite
  have hread' := Files.read_of_write hfiles'
  have hread₁ : m₁.files.read w'.place path =
      .ok (bytesOf (x ++ Section.written "" report ++ y)) := by
    rw [hfiles, hplace]
    exact hread'
  have hwritten : ∀ c ∈ Section.written "" report, c.isHalf = false := by
    simp only [List.forall_mem_append] at hall
    exact hall.1.2
  obtain ⟨m₂, hexec, hread₂⟩ := exists_of_intoDocument hread₁ (decodeString_bytesOf hall)
    (outside?_of_written hxy report) hwritten
  have hx' : unifyBytes (bytesOf x) = unifyBytes before := by rw [hx, unifyBytes_unifyBytes]
  have hy' : unifyBytes (bytesOf y) = unifyBytes after := by rw [hy, unifyBytes_unifyBytes]
  refine ⟨?_, m₂, hexec, ?_⟩
  · rw [hread', bytesOf_append, bytesOf_append, hx, hy]
  · rw [← hplace, hread₂, hx', unifyBytes_remainder, hy']

/-- A second run puts the report of the first run into the document again. -/
theorem exists_report_of_again {content before after : Bytes} (himage : o.image = "")
    (hwrites : o.dryRun = false) (hfile : (Selection.resolve o.template none).file? = none)
    (hb : Builtin.find? (Selection.resolve o.template none).builtinName = some b)
    (hformat : b.format = .markdown) (hread : m.files.read w.place o.output = .ok content)
    (hregion : Section.outside? content "" = some (before, after))
    (hother : m.files.resolve w.place o.dockerfile ≠ m.files.resolve w.place o.output)
    (h : exec (document o) w m = (.ok (), m')) (hplace : w'.place = w.place)
    (hfiles : m₁.files = m'.files) :
    ∃ source report m₂, m.files.readText w.place o.dockerfile = .ok source ∧
      (∀ p, IsTag p → (p <:+: report ↔ ∃ i ∈ (Dockerfile.parse source).documentation.items,
        ∃ s ∈ Markdown.shown b.name i, p <:+: s)) ∧
      m'.files.read w.place o.output =
        .ok (unifyBytes before ++ bytesOf (Section.written "" report) ++ unifyBytes after) ∧
      exec (document o) w' m₁ = (.ok (), m₂) ∧
      m₂.files.read w.place o.output =
        .ok (unifyBytes before ++ bytesOf (Section.written "" report) ++
          (unifyBytes (bytesOf (Section.remainder report)) ++ unifyBytes after)) := by
  obtain ⟨source, hsource⟩ : ∃ source, m.files.readText w.place o.dockerfile = .ok source := by
    obtain ⟨d, m₂, hd, -⟩ := exec_bind_eq_ok.1 h
    exact Steps.exists_readText_of_documentation hd
  obtain ⟨report, htags, hrun⟩ := exec_document_builtin himage hwrites hfile hb hformat source
  obtain ⟨notes, hexec⟩ := hrun w m hsource
  rw [hexec] at h
  -- Only the document has changed, so the Dockerfile reads as before.
  have hsource₁ : m₁.files.readText w'.place o.dockerfile = .ok source := by
    obtain ⟨s, hs⟩ := exists_decodeString_of_intoDocument (m := { m with notes := notes }) hread h
    have hwrite := exists_write_of_intoDocument (m := { m with notes := notes }) hread hs hregion h
    obtain ⟨place, hdockerfile⟩ := Files.exists_resolve_of_readText hsource
    have hkeeps : m.files.Keeps (· = place) m'.files := by
      refine .of_write hwrite fun p hp hpp => hother ?_
      exact hdockerfile.trans (hpp ▸ hp.symm)
    rw [hfiles, hplace, hkeeps.readText hdockerfile rfl, hsource]
  obtain ⟨notes₁, hexec₁⟩ := hrun w' m₁ hsource₁
  obtain ⟨hfirst, m₂, hagain, hsecond⟩ := intoDocument_again (m := { m with notes := notes }) hread
    hregion h hplace (show Machine.files { m₁ with notes := notes₁ } = m'.files from hfiles)
  exact ⟨source, report, m₂, hsource, htags, hfirst, hexec₁.trans hagain, hsecond⟩

/-- A second run on the document that a run has left succeeds. It puts the same report in, and
leaves behind the section what stood there between the first end marker of the report and the end
of the section. So the document stays as it is exactly if no item of the Dockerfile shows an end
marker. -/
theorem document_again {content before after : Bytes} (himage : o.image = "")
    (hwrites : o.dryRun = false) (hfile : (Selection.resolve o.template none).file? = none)
    (hb : Builtin.find? (Selection.resolve o.template none).builtinName = some b)
    (hformat : b.format = .markdown) (hread : m.files.read w.place o.output = .ok content)
    (hregion : Section.outside? content "" = some (before, after))
    (hother : m.files.resolve w.place o.dockerfile ≠ m.files.resolve w.place o.output)
    (h : exec (document o) w m = (.ok (), m')) (hplace : w'.place = w.place)
    (hfiles : m₁.files = m'.files) :
    ∃ source report m₂, m.files.readText w.place o.dockerfile = .ok source ∧
      exec (document o) w' m₁ = (.ok (), m₂) ∧
      m'.files.read w.place o.output =
        .ok (unifyBytes before ++ bytesOf (Section.written "" report) ++ unifyBytes after) ∧
      m₂.files.read w.place o.output =
        .ok (unifyBytes before ++ bytesOf (Section.written "" report) ++
          (unifyBytes (bytesOf (Section.remainder report)) ++ unifyBytes after)) ∧
      (m₂.files.read w.place o.output = m'.files.read w.place o.output ↔
        ∀ i ∈ (Dockerfile.parse source).documentation.items, ∀ s ∈ Markdown.shown b.name i,
          ¬ Text.ofString (Section.endMarker "") <:+: s) := by
  obtain ⟨source, report, m₂, hsource, htags, hfirst, hagain, hsecond⟩ :=
    exists_report_of_again himage hwrites hfile hb hformat hread hregion hother h hplace hfiles
  refine ⟨source, report, m₂, hsource, hagain, hfirst, hsecond, ?_⟩
  have hsame : m₂.files.read w.place o.output = m'.files.read w.place o.output ↔
      Section.remainder report = [] := by
    rw [hfirst, hsecond, Except.ok.injEq, List.append_cancel_left_eq, List.append_left_eq_self,
      unifyBytes_eq_nil_iff, Section.bytesOf_eq_nil_iff]
  rw [hsame, Section.remainder_eq_nil_iff, htags _ Section.isTag_endMarker]
  push Not
  rfl

/-- A second run, later and with other tools around, on a document with an old section. -/
theorem document_again_of_old :
    let w : World := {
      respond := fun _ _ => .fails (.missing "")
      find? := fun _ => none
      environment := []
      directory := "/"
      now := fun _ => ⟨⟨2024, 1, 1⟩, 0, 0, 0, 0, none⟩ }
    let w' : World :=
      { w with find? := fun _ => some "/bin/x", now := fun _ => ⟨⟨2025, 1, 1⟩, 0, 0, 0, 0, none⟩ }
    let m : Machine := { files := ⟨[(["Dockerfile"], .file (encodeString "ARG A=<!--") false),
      (["README.md"],
        .file (encodeString "a\r<!-- BEGIN: dock-docs -->old<!-- END: dock-docs -->") false)]⟩ }
    let o : GenerateOptions := { template := some "compact" }
    (exec (document o) w m).1.isOk = true ∧
      ∃ m₂, exec (document o) w' (exec (document o) w m).2 = (.ok (), m₂) ∧
        m₂.files.read w.place "README.md" =
          (exec (document o) w m).2.files.read w.place "README.md" := by
  intro w w' m o
  have hok : (exec (document o) w m).1.isOk = true := by decide +kernel
  obtain ⟨⟨⟩, hrun⟩ := exists_of_isOk hok
  have hfile : (Selection.resolve o.template none).file? = none := by decide +kernel
  have hname : (Selection.resolve o.template none).builtinName = "compact" := by decide +kernel
  have hb : Builtin.find? "compact" = some ⟨"compact", .markdown,
      "One bullet per item, one-line analysis", Markdown.compactImage,
      Markdown.compactComparison⟩ := rfl
  have hread : m.files.read w.place o.output =
      .ok (encodeString "a\r<!-- BEGIN: dock-docs -->old<!-- END: dock-docs -->") := by
    decide +kernel
  have hsource : m.files.readText w.place o.dockerfile = .ok "ARG A=<!--" := by
    have hbytes : m.files.read w.place o.dockerfile = .ok (encodeString "ARG A=<!--") := by
      decide +kernel
    rw [Files.readText_eq hbytes]
    have hs : decodeString (encodeString "ARG A=<!--") = .ok "ARG A=<!--" := by decide +kernel
    rw [hs]
    rfl
  have hregion : Section.outside? (encodeString
      "a\r<!-- BEGIN: dock-docs -->old<!-- END: dock-docs -->") "" =
        some (encodeString "a\r", []) := by
    decide +kernel
  obtain ⟨source, report, m₂, hread, hagain, -, -, hsame⟩ := document_again rfl rfl hfile
    (hname ▸ hb) rfl hread hregion (by decide +kernel) (exec_eq_of_fst hrun)
    (show w'.place = w.place from rfl) rfl
  refine ⟨hok, m₂, hagain, hsame.2 ?_⟩
  cases hsource.symm.trans hread
  decide +kernel

/-- A description with an end marker is left behind the section once more by every run. -/
theorem document_again_appends :
    let w : World := {
      respond := fun _ _ => .fails (.missing "")
      find? := fun _ => none
      environment := []
      directory := "/"
      now := fun _ => ⟨⟨2024, 1, 1⟩, 0, 0, 0, 0, none⟩ }
    let dockerfile := "# @description: <!-- END: dock-docs -->\nARG A"
    let content := encodeString "<!-- BEGIN: dock-docs --><!-- END: dock-docs -->"
    let m : Machine := { files := ⟨[(["Dockerfile"], .file (encodeString dockerfile) false),
      (["README.md"], .file content false)]⟩ }
    let o : GenerateOptions := { template := some "compact" }
    let m₁ := (exec (document o) w m).2
    let m₂ := (exec (document o) w m₁).2
    (Section.outside? content "").isSome = true ∧ (exec (document o) w m).1.isOk = true ∧
      (exec (document o) w m₁).1.isOk = true ∧
      m₁.files.read w.place o.output = .ok (encodeString ("<!-- BEGIN: dock-docs -->\n" ++
        "- `A` (ARG): <!-- END: dock-docs -->\n<!-- END: dock-docs -->")) ∧
      m₂.files.read w.place o.output = .ok (encodeString ("<!-- BEGIN: dock-docs -->\n" ++
        "- `A` (ARG): <!-- END: dock-docs -->\n" ++
        "<!-- END: dock-docs -->\n<!-- END: dock-docs -->")) := by
  decide +kernel

end Generate
end ContainerDocs

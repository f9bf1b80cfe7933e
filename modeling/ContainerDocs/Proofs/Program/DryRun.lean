import ContainerDocs.Proofs.Program.Stopped

/-!
# Dry runs

A dry run prints what another run writes: the files of sections under their paths, and then the
document. The two runs go side by side as long as no section looks at a file that belongs to a
section.

## Main definitions

* `Generate.shown` — what is printed in place of files.
* `Generate.Mirrors` — a step and its dry counterpart go side by side.
* `Generate.SectionsApart` — sections look at none of the files that belong to sections.
* `Generate.Shows` — a dry run has printed what another run has written.

## Main statements

* `Generate.keeps_dry` — a dry run changes no file.
* `Generate.mirrors_sections` — sections and their dry counterparts go side by side.
* `Generate.run_dry` — a dry run shows what another run writes.
-/

namespace ContainerDocs

open Run Encoding

variable {w : World} {m m' m₁ m₁' : Machine} {kept free : Place → Prop} {base : Files}
  {α β : Type} {paths paths' : List String}

namespace Generate

variable {o : GenerateOptions} {c : Config} {directory : String}

/-! ## Steps side by side -/

/-- What is printed in place of reports that are written to files. -/
def shown (reports : List (String × Text)) : List Text :=
  reports.flatMap fun (path, report) =>
    [Text.ofString ("--- " ++ path ++ " ---\n"), report ++ Text.ofString "\n"]

/-- What a step and its dry counterpart have done on two machines: the system has refused a write,
or both have stopped, or both have given the same. Then the dry one has printed the reports that the
other one has written to files at some of the paths. -/
inductive Mirrored (w : World) (kept free : Place → Prop) (paths : List String) (m m' : Machine) :
    Except Stop α × Machine → Except Stop α × Machine → Prop
  | refused (path : String) (e : SystemError) (m₁ : Machine) (dry : Except Stop α × Machine) :
      Mirrored w kept free paths m m' (.error (.failure (.outputUnwritable path e)), m₁) dry
  | stopped (e e' : Stop) (m₁ m₁' : Machine) :
      Mirrored w kept free paths m m' (.error e, m₁) (.error e', m₁')
  | given (a : α) {m₁ m₁' : Machine} {reports : List (String × Text)} {fs : Files}
      (halike : m₁.Alike free m₁') (hpaths : (reports.map Prod.fst).Sublist paths)
      (hprinted : m₁'.printed = (shown reports).reverse ++ m'.printed)
      (hwritten : Files.Written w.place m.files reports fs) (hkeeps : fs.Keeps kept m₁.files) :
      Mirrored w kept free paths m m' (.ok a, m₁) (.ok a, m₁')

/-- On machines that are alike, a step and its dry counterpart go side by side. -/
def Mirrors (base : Files) (kept free : Place → Prop) (w : World) (paths : List String)
    (step dry : Run α) : Prop :=
  ∀ m m' : Machine, base.SameDirectories m.files → m.Alike free m' →
    Mirrored w kept free paths m m' (exec step w m) (exec dry w m')

theorem Mirrored.after {reports : List (String × Text)} {fs : Files}
    {r r' : Except Stop α × Machine} (hpaths : (reports.map Prod.fst).Sublist paths)
    (hprinted : m₁'.printed = (shown reports).reverse ++ m'.printed)
    (hwritten : Files.Written w.place m.files reports fs) (hkeeps : fs.Keeps kept m₁.files)
    (h : Mirrored w kept free paths' m₁ m₁' r r') :
    Mirrored w kept free (paths ++ paths') m m' r r' := by
  cases h with
  | refused => exact .refused ..
  | stopped => exact .stopped ..
  | given a halike hpaths' hprinted' hwritten' hkeeps' =>
    obtain ⟨gs, hgs, hkeepsgs⟩ := hkeeps.written hwritten'
    refine .given a halike ?_ ?_ (hwritten.append hgs) (hkeepsgs.trans hkeeps')
    · rw [List.map_append]
      exact hpaths.append hpaths'
    · rw [hprinted', hprinted, shown, shown, shown, List.flatMap_append, List.reverse_append,
        List.append_assoc]

theorem Mirrors.bind {step dry : Run α} {next next' : α → Run β}
    (h : Mirrors base kept free w paths step dry)
    (h' : ∀ a, Mirrors base kept free w paths' (next a) (next' a)) :
    Mirrors base kept free w (paths ++ paths') (step >>= next) (dry >>= next') := by
  intro m m' hbase hm
  have hfirst := h m m' hbase hm
  rw [exec_bind, exec_bind]
  rcases hr : exec step w m with ⟨e | a, m₁⟩ <;> rcases hr' : exec dry w m' with ⟨e' | a', m₁'⟩ <;>
    rw [hr, hr'] at hfirst
  · exact .stopped ..
  · cases hfirst
    exact .refused ..
  · cases hfirst
  · cases hfirst with
    | given _ halike hpaths hprinted hwritten hkeeps =>
      have hbase₁ : base.SameDirectories m₁.files :=
        hbase.trans (hwritten.keeps.trans hkeeps.sameDirectories)
      exact .after hpaths hprinted hwritten hkeeps (h' a m₁ m₁' hbase₁ halike)

theorem Mirrors.mono {step dry : Run α} (h : Mirrors base kept free w paths step dry)
    (hpaths : paths.Sublist paths') : Mirrors base kept free w paths' step dry := by
  intro m m' hbase hm
  have hmirrored := h m m' hbase hm
  generalize exec step w m = r, exec dry w m' = r' at hmirrored ⊢
  cases hmirrored with
  | refused => exact .refused ..
  | stopped => exact .stopped ..
  | given a halike hreports hprinted hwritten hkeeps =>
    exact .given a halike (hreports.trans hpaths) hprinted hwritten hkeeps

/-- A step that only reads is its own dry counterpart. -/
theorem mirrors_of_reads {step : Run α} (h : Reads base kept free w step) :
    Mirrors base kept free w [] step step := by
  intro m m' hbase hm
  obtain ⟨⟨hkeeps, -⟩, hagree⟩ := h m m' hbase hm
  have hbase' : base.SameDirectories m'.files := hbase.trans hm.files.sameDirectories
  obtain ⟨⟨-, hprinted⟩, -⟩ := h m' m' hbase' (.refl free m')
  generalize exec step w m = r, exec step w m' = r' at *
  cases hagree with
  | given a halike =>
    have hpaths : (([] : List (String × Text)).map Prod.fst).Sublist [] := List.Sublist.refl []
    exact .given a halike hpaths hprinted (.nil m.files) hkeeps
  | stopped => exact .stopped ..

/-- Writing a text on one machine and printing it on another one: the system refuses the write, or
both stop because the text has no bytes, or the text is written on one and printed on the other. -/
theorem writeText_beside_printLine (path line : String) (text : Text) (w : World) (m m' : Machine) :
    (∃ e m₁, exec (writeText path text >>= fun _ => info line) w m =
      (.error (.failure (.outputUnwritable path e)), m₁)) ∨
    (∃ e e' m₁ m₁', exec (writeText path text >>= fun _ => info line) w m = (.error e, m₁) ∧
      exec (printLine text) w m' = (.error e', m₁')) ∨
    ∃ bytes files, encode text = .ok bytes ∧ m.files.write w.place path bytes = .ok files ∧
      exec (writeText path text >>= fun _ => info line) w m =
        (.ok (), { m with files := files, notes := (.info, line) :: m.notes }) ∧
      exec (printLine text) w m' =
        (.ok (), { m' with printed := (text ++ Text.ofString "\n") :: m'.printed }) := by
  have hline := isOk_encode_append text "\n"
  rw [exec_bind, exec_writeText, exec_printLine]
  cases hbytes : encode text with
  | error e =>
    rw [hbytes] at hline
    cases hlong : encode (text ++ Text.ofString "\n") with
    | ok bytes =>
      rw [hlong] at hline
      cases hline
    | error e' =>
      cases m.files.write w.place path
        ((Except.error e : Except EncodeError Bytes).toOption.getD [])
      · exact .inl ⟨_, _, rfl⟩
      · exact .inr (.inl ⟨_, _, _, _, rfl, rfl⟩)
  | ok bytes =>
    rw [hbytes] at hline
    obtain ⟨long, hlong⟩ := exists_of_isOk hline
    have hcontent : (Except.ok (ε := EncodeError) bytes).toOption.getD [] = bytes := rfl
    rw [hlong, hcontent]
    cases hwrite : m.files.write w.place path bytes with
    | error e => exact .inl ⟨_, _, rfl⟩
    | ok files => exact .inr (.inr ⟨bytes, files, rfl, hwrite, rfl, rfl⟩)

/-- Where a report is written to a file, the dry run prints it under the path of the file. -/
theorem mirrors_writeReport {path : String}
    (hpath : ∀ p, base.resolve w.place path = .ok p → free p) (report : Text) :
    Mirrors base kept free w [path] (writeReport path report)
      (do Run.printLine ("--- " ++ path ++ " ---"); Run.printLine report) := by
  intro m m' hbase hm
  have htitle : Text.ofString "--- " ++ Text.ofString path ++ Text.ofString " ---" ++
      Text.ofString "\n" = Text.ofString ("--- " ++ path ++ " ---\n") := by
    have hend : " ---" ++ "\n" = " ---\n" := rfl
    rw [← Text.ofString_append, ← Text.ofString_append, ← Text.ofString_append, String.append_assoc,
      hend]
  rw [writeReport, exec_bind (Run.printLine _), exec_printLine, htitle, encode_ofString]
  dsimp only
  obtain ⟨e, m₁, hrefused⟩ | ⟨e, e', m₁, m₁', hstop, hstop'⟩ |
      ⟨bytes, files, hbytes, hwrite, hwritten, hprinted⟩ :=
    writeText_beside_printLine path ("Wrote " ++ path) report w m
      { m' with printed := Text.ofString ("--- " ++ path ++ " ---\n") :: m'.printed }
  · rw [hrefused]
    exact .refused ..
  · rw [hstop, hstop']
    exact .stopped ..
  · rw [hwritten, hprinted]
    have hfree : ∀ p, m.files.resolve w.place path = .ok p → free p := fun p hp =>
      hpath p (hbase.resolve_eq_ok.1 hp)
    have hpaths : ([(path, report)].map Prod.fst).Sublist [path] := List.Sublist.refl [path]
    have hfiles : files.Alike free m'.files :=
      (Files.Alike.of_write hwrite hfree).symm.trans hm.files
    exact .given () ⟨hfiles, hm.clock, hm.started, hm.cancelled, hm.catching, hm.temporaries⟩
      hpaths rfl (.cons hbytes hwrite (.nil files)) (.refl kept files)

/-! ## Sections side by side -/

/-- A section looks at none of the places of a class: it reads at none of them, and it has a file of
its own unless the document is elsewhere. -/
structure LooksOutside (o : GenerateOptions) (c : Config) (directory : String) (w : World)
    (base : Files) (free : Place → Prop) (s : Config.Section) : Prop
    extends ReadsOutside o c directory w base free s where
  document : OutputPath.isOwnFile (selectionFor o c s).format = false →
    base.Misses w.place free c.output

instance (w : World) (base : Files) (free : Place → Prop) [DecidablePred free]
    (s : Config.Section) : Decidable (LooksOutside o c directory w base free s) :=
  decidable_of_iff
    ((s.type = Config.imageType → base.Misses w.place free (s.sourceFor directory)) ∧
      (s.type = Config.imageType ∨ s.type = Config.comparisonType →
        ∀ path ∈ (selectionFor o c s).file?, base.Misses w.place free path) ∧
      (OutputPath.isOwnFile (selectionFor o c s).format = false →
        base.Misses w.place free c.output))
    ⟨fun ⟨hsource, htemplate, hdocument⟩ => ⟨⟨hsource, htemplate⟩, hdocument⟩,
      fun ⟨⟨hsource, htemplate⟩, hdocument⟩ => ⟨hsource, htemplate, hdocument⟩⟩

section Sections

variable {index : Nat} {s : Config.Section}

theorem mirrors_deliver
    (houtput : OutputPath.isOwnFile (selectionFor o c s).format = false →
      base.Misses w.place free c.output)
    (hown : ∀ path ∈ ownPath? o c index s, ∀ p, base.resolve w.place path = .ok p → free p)
    (content : Option Text) (report : Text) :
    Mirrors base kept free w (ownPath? o c index s).toList
      (deliver { o with dryRun := false } c index s content report)
      (deliver { o with dryRun := true } c index s content report) := by
  cases hpath : ownPath? o c index s with
  | none =>
    have hdeliver : ∀ b, deliver { o with dryRun := b } c index s content report =
        share c s content report := by
      intro b
      have hnone : ownPath? { o with dryRun := b } c index s = none := hpath
      rw [deliver, hnone]
    have hshared : OutputPath.isOwnFile (selectionFor o c s).format = false := by
      rw [ownPath?] at hpath
      split_ifs at hpath with hformat
      exact Bool.eq_false_iff.2 hformat
    rw [hdeliver, hdeliver]
    exact mirrors_of_reads (reads_share c (houtput hshared) s content report)
  | some path =>
    have hdeliver : ∀ b, deliver { o with dryRun := b } c index s content report =
        ownFile { o with dryRun := b } path report >>= fun _ => pure content := by
      intro b
      have hsome : ownPath? { o with dryRun := b } c index s = some path := hpath
      rw [deliver, hsome]
    rw [hdeliver, hdeliver]
    exact (mirrors_writeReport (hown path hpath) report).bind fun _ =>
      mirrors_of_reads (ignores_pure content).reads

variable (hw : w.LeavesAlone kept) (hfree : Adapter.Overlooks w kept free)
include hw hfree

theorem mirrors_sectionStep (hs : LooksOutside o c directory w base free s)
    (hown : ∀ path ∈ ownPath? o c index s, ∀ p, base.resolve w.place path = .ok p → free p)
    (content : Option Text) :
    Mirrors base kept free w (ownPath? o c index s).toList
      (sectionStep { o with dryRun := false } c directory index content s)
      (sectionStep { o with dryRun := true } c directory index content s) := by
  have hreport : Mirrors base kept free w []
      (reportOf { o with dryRun := false } c directory index s)
      (reportOf { o with dryRun := true } c directory index s) :=
    mirrors_of_reads (reads_reportOf hw hfree hs.toReadsOutside index)
  refine hreport.bind fun report => ?_
  cases report with
  | none => exact (mirrors_of_reads (ignores_pure content).reads).mono (List.nil_sublist _)
  | some report => exact mirrors_deliver hs.document hown content report

theorem mirrors_sections {ss : List Config.Section}
    (hss : ∀ s ∈ ss, LooksOutside o c directory w base free s)
    (hown : ∀ path ∈ ownPaths o c index ss, ∀ p, base.resolve w.place path = .ok p → free p)
    (content : Option Text) :
    Mirrors base kept free w (ownPaths o c index ss)
      (sectionsOf { o with dryRun := false } c directory index content ss)
      (sectionsOf { o with dryRun := true } c directory index content ss) := by
  induction ss generalizing index content with
  | nil => exact mirrors_of_reads (ignores_pure content).reads
  | cons s rest ih =>
    obtain ⟨hs, hrest⟩ := List.forall_mem_cons.1 hss
    rw [sectionsOf_cons, sectionsOf_cons]
    refine (mirrors_sectionStep hw hfree hs (fun path hpath => ?_) content).bind
      fun content => ih hrest (fun path hpath => hown path (List.mem_append_right _ hpath)) content
    exact hown path (List.mem_append_left _ (by simpa using hpath))

end Sections

theorem Mirrors.catching {step dry : Run α} (h : Mirrors base kept free w paths step dry) :
    Mirrors base kept free w paths (catching step) (catching dry) := by
  intro m m' hbase hm
  have hstart : Machine.Alike free { m with catching := true, cancelled := false }
      { m' with catching := true, cancelled := false } :=
    ⟨hm.files, hm.clock, hm.started, rfl, rfl, hm.temporaries⟩
  have hmirrored := h { m with catching := true, cancelled := false }
    { m' with catching := true, cancelled := false } hbase hstart
  rw [exec_catching, exec_catching]
  generalize exec step w { m with catching := true, cancelled := false } = r,
    exec dry w { m' with catching := true, cancelled := false } = r' at hmirrored ⊢
  cases hmirrored with
  | refused => exact .refused ..
  | stopped => exact .stopped ..
  | given a halike hpaths hprinted hwritten hkeeps =>
    exact .given a ⟨halike.files, halike.clock, halike.started, halike.cancelled, rfl,
      halike.temporaries⟩ hpaths hprinted hwritten hkeeps

/-! ## Dry runs keep files -/

theorem keeps_deliver_dry (index : Nat) (s : Config.Section) (content : Option Text)
    (report : Text) :
    Keeps kept w (deliver { o with dryRun := true } c index s content report) := by
  rw [deliver]
  split
  · exact (keeps_printReport _ report).bind fun _ => (ignores_pure _).keeps
  · exact keeps_share c s content report

theorem keeps_sections_dry (hw : w.LeavesAlone kept) (index : Nat) (content : Option Text)
    (ss : List Config.Section) :
    Keeps kept w (sectionsOf { o with dryRun := true } c directory index content ss) := by
  induction ss generalizing index content with
  | nil => exact (ignores_pure content).keeps
  | cons s rest ih =>
    rw [sectionsOf_cons]
    refine Keeps.bind ((keeps_reportOf hw index).bind fun report => ?_) fun content => ih _ content
    cases report with
    | none => exact (ignores_pure content).keeps
    | some report => exact keeps_deliver_dry index s content report

/-- A dry run changes no file, however it ends. -/
theorem keeps_dry (hw : w.LeavesAlone kept) : Keeps kept w (run { o with dryRun := true }) := by
  rw [run]
  split
  · rw [fromConfig_eq]
    refine (keeps_opening _).bind fun opened => ?_
    obtain ⟨c, directory⟩ := opened
    refine Keeps.bind (Keeps.catching (keeps_sections_dry hw 0 none c.sections)) fun content => ?_
    cases content with
    | none => exact (ignores_pure ()).keeps
    | some content =>
      rw [finish, if_pos rfl]
      exact keeps_printLine content
  · rw [document_eq]
    refine (keeps_documentReport _ (.inr hw)).bind fun report => ?_
    rw [deliverDocument, if_pos rfl]
    exact keeps_printLine report

/-! ## Dry runs show what is written -/

def IsOwn (o : GenerateOptions) (c : Config) (w : World) (fs : Files) (p : Place) : Prop :=
  ∃ path ∈ ownPaths o c 0 c.sections, fs.resolve w.place path = .ok p

instance (w : World) (fs : Files) : DecidablePred (IsOwn o c w fs) :=
  fun p => inferInstanceAs
    (Decidable (∃ path ∈ ownPaths o c 0 c.sections, fs.resolve w.place path = .ok p))

/-- The sections of a configuration look at none of the files that belong to sections, and none of
the names that are drawn for reports of tools is that of such a file. -/
structure SectionsApart (o : GenerateOptions) (c : Config) (directory : String) (w : World)
    (fs : Files) : Prop where
  sections : ∀ s ∈ c.sections, LooksOutside o c directory w fs (IsOwn o c w fs) s
  reports : ∀ k, ¬ IsOwn o c w fs (Adapter.reportPlace (w.draw k))

/-- Sections are apart when the files that belong to them stand in no directory. -/
theorem sectionsApart_of_shallow {fs : Files}
    (hsections : ∀ s ∈ c.sections, LooksOutside o c directory w fs (IsOwn o c w fs) s)
    (hown : ∀ path ∈ ownPaths o c 0 c.sections,
      (fs.resolve w.place path).toOption.map (·.length) = some 1) :
    SectionsApart o c directory w fs := by
  refine ⟨hsections, fun k ⟨path, hpath, hplace⟩ => ?_⟩
  have hlength := hown path hpath
  rw [hplace] at hlength
  exact absurd (Option.some.inj hlength) (by simp [Adapter.reportPlace])

theorem overlooks_isOwn {fs : Files}
    (h : ∀ k, ¬ IsOwn o c w fs (Adapter.reportPlace (w.draw k))) :
    Adapter.Overlooks w (fun _ => True) (IsOwn o c w fs) := by
  refine ⟨fun _ _ => trivial, ?_, h⟩
  rintro ⟨path, hpath, htmp⟩
  obtain ⟨s, hs, i, format, hown⟩ := eq_ofSection_of_mem_ownPaths hpath
  rw [hown] at htmp
  exact OutputPath.resolve_ofSection_ne_tmp htmp

/-- What a dry run has printed is what the other run has written: the reports of sections under
their paths, and then the document if that has been put together. -/
structure Shows (o : GenerateOptions) (c : Config) (w : World) (m real dry : Machine)
    (reports : List (String × Text)) (document : Option Text) (fs : Files) : Prop where
  paths : (reports.map Prod.fst).Sublist (ownPaths o c 0 c.sections)
  printed : dry.printed.reverse = m.printed.reverse ++ shown reports ++
    document.toList.map (· ++ Text.ofString "\n")
  written : Files.Written w.place m.files (reports ++ document.toList.map (c.output, ·)) fs
  files : fs.Keeps (fun _ => True) real.files

/-- The document of sections is written at the end of one run and printed at the end of the
other. -/
theorem finish_beside_finish (document : Option Text) (w : World) (m m' : Machine) :
    (∃ e m₁, exec (finish { o with dryRun := false } c document) w m =
      (.error (.failure (.outputUnwritable c.output e)), m₁)) ∨
    (∃ e e' m₁ m₁', exec (finish { o with dryRun := false } c document) w m = (.error e, m₁) ∧
      exec (finish { o with dryRun := true } c document) w m' = (.error e', m₁')) ∨
    ∃ m₁ m₁', exec (finish { o with dryRun := false } c document) w m = (.ok (), m₁) ∧
      exec (finish { o with dryRun := true } c document) w m' = (.ok (), m₁') ∧
      Files.Written w.place m.files (document.toList.map (c.output, ·)) m₁.files ∧
      m₁'.printed = document.toList.map (· ++ Text.ofString "\n") ++ m'.printed := by
  cases document with
  | none => exact .inr (.inr ⟨m, m', rfl, rfl, .nil m.files, rfl⟩)
  | some content =>
    rw [finish, finish, if_neg (by simp), if_pos rfl]
    obtain hrefused | hstopped | ⟨bytes, files, hbytes, hwrite, hwritten, hprinted⟩ :=
      writeText_beside_printLine c.output ("Updated " ++ c.output) content w m m'
    · exact .inl hrefused
    · exact .inr (.inl hstopped)
    · exact .inr (.inr ⟨_, _, hwritten, hprinted, .cons hbytes hwrite (.nil files), rfl⟩)

/-- What comes after the configuration has been read: the run that is not dry is refused a write, or
both runs stop, or both end well and one shows what the other has written. -/
theorem refused_or_stopped_or_shows (hw : w.WritesReportsOnly) {fs : Files}
    (hapart : SectionsApart o c directory w fs)
    (hfs : fs.Keeps (fun _ => True) m.files) :
    let parts := fun b => catching (sectionsOf { o with dryRun := b } c directory 0 none c.sections)
      >>= finish { o with dryRun := b } c
    (∃ path e m₁, exec (parts false) w m = (.error (.failure (.outputUnwritable path e)), m₁)) ∨
    (∃ e e' m₁ m₁', exec (parts false) w m = (.error e, m₁) ∧
      exec (parts true) w m = (.error e', m₁')) ∨
    ∃ m₁ m₁', exec (parts false) w m = (.ok (), m₁) ∧ exec (parts true) w m = (.ok (), m₁') ∧
      ∃ reports document gs, Shows o c w { m with files := fs } m₁ m₁' reports document gs := by
  intro parts
  have hsections := (mirrors_sections (o := o) (hw.leavesAlone _)
    (overlooks_isOwn hapart.reports) hapart.sections
    (fun path (hpath : path ∈ ownPaths o c 0 c.sections) p hp => ⟨path, hpath, hp⟩) none).catching
    m m hfs.sameDirectories (.refl _ m)
  dsimp only [parts]
  rw [exec_bind, exec_bind]
  generalize
    exec (catching (sectionsOf { o with dryRun := false } c directory 0 none c.sections)) w m = r,
    exec (catching (sectionsOf { o with dryRun := true } c directory 0 none c.sections)) w m = r'
    at hsections ⊢
  cases hsections with
  | refused path e m₁ => exact .inl ⟨path, e, m₁, rfl⟩
  | stopped e e' m₁ m₁' => exact .inr (.inl ⟨e, e', m₁, m₁', rfl, rfl⟩)
  | @given document m₁ m₁' reports gs halike hpaths hprinted hwritten hkeeps =>
    dsimp only
    obtain ⟨e, m₂, hrefused⟩ | hstopped | ⟨m₂, m₂', hreal, hdry, hdocument, hlast⟩ :=
      finish_beside_finish (o := o) (c := c) document w m₁ m₁'
    · exact .inl ⟨c.output, e, m₂, hrefused⟩
    · exact .inr (.inl hstopped)
    · -- What is written after the tools have worked could have been written before.
      obtain ⟨gs₁, hgs₁, hkeeps₁⟩ := hkeeps.written hdocument
      obtain ⟨gs₂, hgs₂, hkeeps₂⟩ := hfs.written (hwritten.append hgs₁)
      refine .inr (.inr ⟨m₂, m₂', hreal, hdry, reports, document, gs₂, hpaths, ?_, hgs₂,
        hkeeps₂.trans hkeeps₁⟩)
      rw [hlast, hprinted]
      cases document <;> simp

/-- A dry run changes no file. With a configuration whose sections look at none of the files that
belong to sections, and none of these files having a name that is drawn for the report of a tool, it
ends as the run that is not dry does, unless that is refused a write. If both end well, the dry run
shows what the other one writes. -/
theorem run_dry (hw : w.WritesReportsOnly) (o : GenerateOptions) (m : Machine) :
    let real := exec (run { o with dryRun := false }) w m
    let dry := exec (run { o with dryRun := true }) w m
    m.files.Keeps (fun _ => True) dry.2.files ∧
    ∀ path, Selection.filled o.config = some path →
      (∀ c directory m₁, exec (opening path) w m = (.ok (c, directory), m₁) →
        SectionsApart o c directory w m.files) →
      ((∀ p e, real.1 ≠ .error (.failure (.outputUnwritable p e))) → real.1.isOk = dry.1.isOk) ∧
      (real.1.isOk = true → ∃ c directory m₁ reports document fs,
        exec (opening path) w m = (.ok (c, directory), m₁) ∧
        Shows o c w m real.2 dry.2 reports document fs) := by
  intro real dry
  refine ⟨keeps_dry (hw.leavesAlone _) m, fun path hpath hapart => ?_⟩
  have hreads : Reads m.files (fun _ => True) (fun _ => False) w (opening path) :=
    reads_opening fun _ _ h => h
  obtain ⟨⟨hfiles, hprinted⟩, -⟩ := hreads m m (.refl _ _) (.refl _ m)
  rcases hopen : exec (opening path) w m with ⟨e | ⟨c, directory⟩, m₁⟩
  · have hstopped : ∀ b, exec (run { o with dryRun := b }) w m = (.error e, m₁) := by
      intro b
      rw [run, hpath]
      dsimp only
      rw [fromConfig_eq, exec_bind, hopen]
    dsimp only [real, dry]
    rw [hstopped, hstopped]
    exact ⟨fun _ => rfl, fun h => by cases h⟩
  · have hreal : real = _ := exec_run_of_opening (o := { o with dryRun := false }) hpath hopen
    have hdry : dry = _ := exec_run_of_opening (o := { o with dryRun := true }) hpath hopen
    rw [hopen] at hfiles hprinted
    dsimp only at hprinted
    rw [hreal, hdry]
    obtain ⟨p, e, m₂, hrefused⟩ | ⟨e, e', m₂, m₂', hreal, hdry⟩ |
        ⟨m₂, m₂', hreal, hdry, reports, document, fs, hshows⟩ :=
      refused_or_stopped_or_shows hw (hapart c directory m₁ hopen) hfiles
    · rw [hrefused]
      exact ⟨fun h => absurd rfl (h p e), fun h => by cases h⟩
    · rw [hreal, hdry]
      exact ⟨fun _ => rfl, fun h => by cases h⟩
    · rw [hreal, hdry]
      refine ⟨fun _ => rfl, fun _ => ⟨c, directory, m₁, reports, document, fs, rfl,
        hshows.paths, ?_, hshows.written, hshows.files⟩⟩
      rw [← hprinted]
      exact hshows.printed

/-- A dry run shows the file of its first section and then the document that its second section has
been put into. -/
theorem run_dry_of_two :
    let w : World := {
      respond := fun _ _ => .fails (.missing "")
      find? := fun _ => none
      environment := []
      directory := "/"
      now := fun _ => ⟨⟨2024, 1, 1⟩, 0, 0, 0, 0, none⟩ }
    let config :=
      "sections: [\x7btemplate: \x7bpath: t.html\x7d\x7d, \x7btemplate: \x7bpath: t.md\x7d\x7d]"
    let document := "<!-- BEGIN: dock-docs -->\n<!-- END: dock-docs -->\n"
    let m : Machine := { files := ⟨[(["c"], .file (Encoding.encodeString config) false),
      (["Dockerfile"], .file [] false), (["t.html"], .file [104] false),
      (["t.md"], .file [109] false),
      (["README.md"], .file (Encoding.encodeString document) false)]⟩ }
    let o : GenerateOptions := { config := some "c" }
    let real := exec (run { o with dryRun := false }) w m
    let dry := exec (run { o with dryRun := true }) w m
    w.WritesReportsOnly ∧
    (∀ c directory m₁, exec (opening "c") w m = (.ok (c, directory), m₁) →
      SectionsApart o c directory w m.files) ∧
    real.1.isOk = true ∧ dry.1.isOk = true ∧
    dry.2.files.find? ["README.md"] = m.files.find? ["README.md"] ∧
    dry.2.printed.length = 3 ∧
    ∃ c reports content fs, Shows o c w m real.2 dry.2 reports content fs := by
  intro w config document m o real dry
  have htools : w.WritesReportsOnly := fun _ _ _ hb => by cases hb
  let c : Config := {
    output := "/README.md"
    sections := [{ template := some { path := some "/t.html" } },
      { template := some { path := some "/t.md" } }] }
  have hopens : exec (opening "c") w m = (.ok (c, "/"), _) :=
    exec_opening_of_toOption (by decide +kernel)
  have hapart : ∀ c directory m₁, exec (opening "c") w m = (.ok (c, directory), m₁) →
      SectionsApart o c directory w m.files := by
    intro c directory m₁ hopen
    cases hopens.symm.trans hopen
    exact sectionsApart_of_shallow (by decide +kernel) (by decide +kernel)
  have hreal : real.1.isOk = true := by
    have hrun : real = _ := exec_run_of_opening (o := { o with dryRun := false }) rfl hopens
    rw [hrun]
    decide +kernel
  have hprinted : dry.2.printed.length = 3 := by
    have hrun : dry = _ := exec_run_of_opening (o := { o with dryRun := true }) rfl hopens
    rw [hrun]
    decide +kernel
  obtain ⟨hkeeps, hshows⟩ := run_dry htools o m
  obtain ⟨hsame, hwritten⟩ := hshows "c" rfl hapart
  obtain ⟨c, directory, m₁, reports, content, fs, -, hshow⟩ := hwritten hreal
  have hdry : real.1.isOk = dry.1.isOk := hsame fun p e he => by
    rw [he] at hreal
    cases hreal
  refine ⟨htools, hapart, hreal, hdry ▸ hreal, ?_, hprinted, c, reports, content, fs, hshow⟩
  exact hkeeps.find?_eq ["README.md"] trivial

/-- A dry run gets further when the system refuses to write the file of a section in front of one
without a Dockerfile. It shows another text than is written when the file of a section has the name
that is drawn for the report of a tool: then the tool is told another name, which a warning about
the tool quotes. -/
theorem dry_run_differs :
    (let w : World := {
      respond := fun _ _ => .fails (.missing "")
      find? := fun _ => none
      environment := []
      directory := "/"
      now := fun _ => ⟨⟨2024, 1, 1⟩, 0, 0, 0, 0, none⟩ }
    let config := "template: \x7bpath: t.html\x7d\nsections: [\x7b\x7d, \x7bsource: b\x7d]"
    let m : Machine := { files := ⟨[(["c"], .file (Encoding.encodeString config) false),
      (["Dockerfile"], .file [] false), (["t.html"], .file [] false),
      (["README-section0.html"], .directory)]⟩ }
    let o : GenerateOptions := { config := some "c" }
    let real := exec (run { o with dryRun := false }) w m
    let dry := exec (run { o with dryRun := true }) w m
    w.WritesReportsOnly ∧
    (∀ c directory m₁, exec (opening "c") w m = (.ok (c, directory), m₁) →
      SectionsApart o c directory w m.files) ∧
    ¬ ((real.1.isOk = false ∧ ∀ p e, real.1 ≠ .error (.failure (.outputUnwritable p e))) ↔
      dry.1.isOk = false)) ∧
    (let w : World := {
      respond := fun _ argv =>
        if argv = ["docker", "inspect", "--type=image", "a"] then .runs {} else .fails (.missing "")
      find? := fun name =>
        if name = "docker" ∨ name = "dive" then some ("/usr/bin/" ++ name) else none
      environment := []
      directory := "/"
      now := fun _ => ⟨⟨2024, 1, 1⟩, 0, 0, 0, 0, none⟩ }
    let config := "output: /tmp/dive-output.md\ntemplate: \x7bpath: t.json\x7d\n" ++
      "sections: [\x7bmarker: '0'\x7d, \x7btag: a, marker: b\x7d]"
    let m : Machine := { files := ⟨[(["c"], .file (Encoding.encodeString config) false),
      (["Dockerfile"], .file [] false), (["tmp"], .directory),
      (["t.json"], .file (Encoding.encodeString "\x7b\x7bstats\x7d\x7d") false)]⟩ }
    let o : GenerateOptions := { config := some "c" }
    let real := exec (run { o with dryRun := false }) w m
    let dry := exec (run { o with dryRun := true }) w m
    w.WritesReportsOnly ∧
    (∀ c directory m₁, exec (opening "c") w m = (.ok (c, directory), m₁) →
      ∀ s ∈ c.sections, LooksOutside o c directory w m.files (IsOwn o c w m.files) s) ∧
    real.1.isOk = true ∧ dry.1.isOk = true ∧ dry.2.printed.length = 4 ∧
    (real.2.files.read w.place "/tmp/dive-output-b.json").isOk = true ∧
    dry.2.printed.head?.map bytesOf ≠
      (real.2.files.read w.place "/tmp/dive-output-b.json").toOption.map (· ++ [10])) := by
  constructor
  · intro w config m o real dry
    let c : Config := {
      output := "/README.md", template := some { path := some "/t.html" }
      sections := [{}, { source := some "/b" }] }
    have hopens : exec (opening "c") w m = (.ok (c, "/"), _) :=
      exec_opening_of_toOption (by decide +kernel)
    have hreal : real = _ := exec_run_of_opening (o := { o with dryRun := false }) rfl hopens
    have hdry : dry = _ := exec_run_of_opening (o := { o with dryRun := true }) rfl hopens
    refine ⟨fun _ _ _ hb => (by cases hb), fun c directory m₁ hopen => ?_, fun hiff => ?_⟩
    · cases hopens.symm.trans hopen
      exact sectionsApart_of_shallow (by decide +kernel) (by decide +kernel)
    · have hstopped : dry.1.isOk = false := by
        rw [hdry]
        decide +kernel
      have hrefused : real.1 = .error (.failure (.outputUnwritable "/README-section0.html"
          (.isDirectory "/README-section0.html"))) := by
        rw [hreal]
        decide +kernel
      exact (hiff.2 hstopped).2 _ _ hrefused
  · intro w config m o real dry
    let c : Config := {
      output := "/tmp/dive-output.md", template := some { path := some "/t.json" }
      sections := [{ marker := "0" }, { tag := some "a", marker := "b" }] }
    have hopens : exec (opening "c") w m = (.ok (c, "/"), _) :=
      exec_opening_of_toOption (by decide +kernel)
    have hreal : real = _ := exec_run_of_opening (o := { o with dryRun := false }) rfl hopens
    have hdry : dry = _ := exec_run_of_opening (o := { o with dryRun := true }) rfl hopens
    have hends : real.1.isOk = true ∧ dry.1.isOk = true ∧ dry.2.printed.length = 4 ∧
        (real.2.files.read w.place "/tmp/dive-output-b.json").isOk = true ∧
        dry.2.printed.head?.map bytesOf ≠
          (real.2.files.read w.place "/tmp/dive-output-b.json").toOption.map (· ++ [10]) := by
      rw [hreal, hdry]
      decide +kernel
    refine ⟨fun before argv b hb => ?_, fun c directory m₁ hopen => ?_, hends⟩
    · dsimp only [w] at hb
      split_ifs at hb
      cases hb
      exact .inl rfl
    · cases hopens.symm.trans hopen
      decide +kernel

end Generate
end ContainerDocs

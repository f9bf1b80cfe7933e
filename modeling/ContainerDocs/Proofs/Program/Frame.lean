import ContainerDocs.Proofs.Analysis.Frame
import ContainerDocs.Proofs.Program.Parts
import ContainerDocs.Proofs.System.Reads

/-!
# What a run keeps

Up to the place where a report is written, a run reads files and lets tools work. So it keeps what
the tools leave alone, and it looks at the Dockerfile and at the template only.

## Main definitions

* `Generate.ReadsOutside` — a section reads at none of the places of a class.

## Main statements

* `Steps.reads_documentation`, `Steps.reads_imageReport` — what the steps on files look at.
* `Generate.ignores_analyze` — what the analysis of an image does not look at.
* `Generate.reads_documentReport`, `Generate.reads_reportOf` — what a report depends on.
* `Generate.exists_report_of_document` — what a run has kept when it puts its report into a
  document.
-/

namespace ContainerDocs

open Run

variable {kept free : Place → Prop} {w : World} {m m' : Machine} {base : Files}

namespace Steps

theorem ignores_orFail {α : Type} (r : Except Failure α) : Ignores kept free w (orFail r) := by
  cases r with
  | ok a => exact ignores_pure a
  | error f => exact ignores_fail f

theorem reads_documentation {path : String} (hpath : base.Misses w.place free path) :
    Reads base kept free w (documentation path) := by
  refine reads_readText_bind hpath (fun content => Ignores.reads ?_) fun e => ⟨_, rfl⟩
  refine (ignores_notes _ _ _).bind fun _ => (ignores_notes _ _ _).bind fun _ => ?_
  exact (ignores_note _ _).bind fun _ => ignores_pure _

theorem reads_template {s : Selection}
    (hfile : ∀ path, s.file? = some path → base.Misses w.place free path) (kind : ReportKind) :
    Reads base kept free w (template s kind) := by
  rw [template]
  split
  next => exact (ignores_orFail _).reads
  next path hpath =>
    exact reads_readText_bind (hfile path hpath) (fun _ => (ignores_orFail _).reads)
      fun e => ⟨_, rfl⟩

theorem reads_imageReport {s : Selection}
    (hfile : ∀ path, s.file? = some path → base.Misses w.place free path) (d : Documentation)
    (stats : Option ImageStats) (options : ReportOptions) :
    Reads base kept free w (imageReport d stats options s) := by
  refine (reads_template hfile .image).bind fun t => Ignores.reads ?_
  refine (ignores_ofExcept _).bind fun values => (ignores_note _ _).bind fun _ => ?_
  exact ignores_ofExcept _

theorem reads_comparisonReport {s : Selection}
    (hfile : ∀ path, s.file? = some path → base.Misses w.place free path)
    (images : List ImageStats) (labels : List String) (options : ReportOptions) :
    Reads base kept free w (comparisonReport images labels options s) :=
  (reads_template hfile .comparison).bind fun _ => (ignores_ofExcept _).reads

end Steps

namespace Generate

variable (o : GenerateOptions) (c : Config) (directory : String)

theorem ignores_giveUpIfCancelled : Ignores kept free w giveUpIfCancelled :=
  ignores_isCancelled.bind fun _ => .ite (ignores_throw _) (ignores_pure _)

theorem ignores_noteTemplate (s : Selection) (type : String) :
    Ignores kept free w (noteTemplate o s type) :=
  .ite (ignores_note _ _) (ignores_pure _)

section Tools

variable (hw : w.LeavesAlone kept) (hfree : Adapter.Overlooks w kept free)
include hw hfree

theorem ignores_analyze (timeouts : Timeouts) (image : String) :
    Ignores kept free w (analyze o timeouts image) := by
  refine (Pull.ignores_ensureAll hw hfree.kept _ _ _).bind fun ready => .ite (ignores_pure _) ?_
  refine (ignores_note _ _).bind fun _ => ?_
  have hsearch := Analysis.searchIgnores_standard hw hfree timeouts true
  refine (Analysis.ignores_analyze hsearch image true none).bind fun stats => ?_
  refine ignores_giveUpIfCancelled.bind fun _ => ?_
  exact (Steps.ignores_orFail _).bind fun _ => ignores_pure _

end Tools

/-! ## Configurations -/

/-- A configuration is read at its path, and nothing else is looked at. -/
theorem reads_opening {path : String} (hpath : base.Misses w.place free path) :
    Reads base kept free w (opening path) := by
  have hdirectory : Ignores kept free w (Config.directoryOf path) :=
    ignores_read.bind fun _ => ignores_pure _
  have hconfig : Reads base kept free w (Config.ofFile path) := by
    refine reads_readText_bind hpath (fun content => Ignores.reads ?_) fun e => ⟨_, rfl⟩
    exact ignores_read.bind fun _ => hdirectory.bind fun _ => ignores_ofExcept _
  refine (ignores_note _ _).reads.bind fun _ => hconfig.bind fun c => ?_
  exact (hdirectory.bind fun _ => ignores_pure _).reads

theorem keeps_opening (path : String) : Keeps kept w (opening path) :=
  Reads.keeps fun _ => reads_opening fun _ _ h => h

/-- Reading a configuration leaves a note and nothing else. -/
theorem exec_opening_snd (path : String) (w : World) (m : Machine) :
    (exec (opening path) w m).2 =
      { m with notes := (.info, "Using config file: " ++ path) :: m.notes } := by
  have hdirectory : ∀ m, exec (Config.directoryOf path) w m =
      (.ok (Path.parent (Path.absolute w.directory path)), m) := fun _ => rfl
  rw [opening, exec_bind, Run.info, exec_note]
  dsimp only
  rw [exec_bind, Config.ofFile, exec_bind, exec_readText]
  dsimp only
  rcases m.files.readText w.place path with (e | e) | text
  · rfl
  · rfl
  · dsimp only
    rw [exec_bind, exec_read]
    dsimp only
    rw [exec_bind, hdirectory]
    dsimp only
    rw [exec_ofExcept]
    cases Config.parse (w.limits text) text (Path.parent (Path.absolute w.directory path)) <;> rfl

theorem exec_opening_of_toOption {path directory : String} {c : Config}
    (h : (exec (opening path) w m).1.toOption = some (c, directory)) :
    exec (opening path) w m = (.ok (c, directory),
      { m with notes := (.info, "Using config file: " ++ path) :: m.notes }) := by
  refine Prod.ext ?_ (exec_opening_snd path w m)
  cases hresult : (exec (opening path) w m).1 <;> rw [hresult] at h <;> cases h
  rfl

/-- What a run does after it has read its configuration. -/
theorem exec_run_of_opening {m₁ : Machine} {path directory : String} {c : Config}
    (hpath : Selection.filled o.config = some path)
    (hopen : exec (opening path) w m = (.ok (c, directory), m₁)) :
    exec (run o) w m =
      exec (catching (sectionsOf o c directory 0 none c.sections) >>= finish o c) w m₁ := by
  rw [run, hpath]
  dsimp only
  rw [fromConfig_eq, exec_bind, hopen]

/-! ## Reports of sections -/

/-- A section reads at none of the places of a class. Only a section about one image has a source,
and a section of an unknown type has no template either. -/
structure ReadsOutside (w : World) (base : Files) (free : Place → Prop) (s : Config.Section) :
    Prop where
  source : s.type = Config.imageType → base.Misses w.place free (s.sourceFor directory)
  template : s.type = Config.imageType ∨ s.type = Config.comparisonType →
    ∀ path, (selectionFor o c s).file? = some path → base.Misses w.place free path

section Sections

variable {o c directory}
variable {s : Config.Section} (hw : w.LeavesAlone kept) (hfree : Adapter.Overlooks w kept free)
include hw hfree

theorem reads_imageSection (htype : s.type = Config.imageType)
    (hs : ReadsOutside o c directory w base free s) (options : ReportOptions) :
    Reads base kept free w (imageSection o c directory s (selectionFor o c s) options) := by
  refine (Steps.reads_documentation (hs.source htype)).bind fun d => ?_
  extract_lets report
  have hreport : ∀ stats, Reads base kept free w (report stats) :=
    fun stats => Steps.reads_imageReport (hs.template (.inl htype)) d stats options
  split
  · exact (ignores_analyze o hw hfree c.timeouts _).reads.bind hreport
  · exact (ignores_pure none).reads.bind hreport

theorem reads_comparisonSection (htype : s.type = Config.comparisonType)
    (hs : ReadsOutside o c directory w base free s) (index : Nat) (options : ReportOptions) :
    Reads base kept free w (comparisonSection o c index s (selectionFor o c s) options) := by
  rw [comparisonSection]
  split
  · exact ((ignores_note _ _).bind fun _ => ignores_pure _).reads
  · refine (Pull.ignores_ensureAll hw hfree.kept _ _ _).reads.bind fun ready => ?_
    extract_lets images tags probes
    split
    · exact (ignores_pure _).reads
    · have hprobes : ∀ i ∈ tags.map fun tag => (tag, probes),
          ∀ probe ∈ i.2, Analysis.SearchIgnores kept free w probe := by
        intro i hi
        obtain ⟨tag, -, rfl⟩ := List.mem_map.1 hi
        exact Analysis.searchIgnores_standard hw hfree c.timeouts true
      refine (ignores_note _ _).reads.bind fun _ => ?_
      refine (Analysis.ignores_compare true hprobes).reads.bind fun stats => ?_
      refine ignores_giveUpIfCancelled.reads.bind fun _ => ?_
      refine (Steps.ignores_orFail _).reads.bind fun _ => ?_
      refine (Steps.reads_comparisonReport (hs.template (.inr htype)) _ _ _).bind fun _ => ?_
      exact (ignores_pure _).reads

theorem reads_reportOf (hs : ReadsOutside o c directory w base free s) (index : Nat) :
    Reads base kept free w (reportOf o c directory index s) := by
  refine (ignores_noteTemplate o _ _).reads.bind fun _ => ?_
  rw [sectionReport]
  split
  next htype => exact (reads_imageSection hw hfree htype hs _).bind fun _ => (ignores_pure _).reads
  next =>
    split
    next htype => exact reads_comparisonSection hw hfree htype hs index _
    next => exact ((ignores_note _ _).bind fun _ => ignores_pure _).reads

omit hfree in
theorem keeps_reportOf (index : Nat) : Keeps kept w (reportOf o c directory index s) :=
  Reads.keeps fun _ => reads_reportOf hw (Adapter.overlooks_none w kept)
    ⟨fun _ _ _ h => h, fun _ _ _ _ _ h => h⟩ index

end Sections

/-! ## The document of sections -/

theorem ignores_intoSection (marker : String) (content report : Text) :
    Ignores kept free w (intoSection marker content report) := by
  rw [intoSection]
  split
  · exact ignores_pure _
  · exact (ignores_note _ _).bind fun _ => ignores_pure _

theorem reads_share (houtput : base.Misses w.place free c.output) (s : Config.Section)
    (content : Option Text) (report : Text) :
    Reads base kept free w (share c s content report) := by
  have hcontent : Reads base kept free w (contentOf c.output content) := by
    cases content with
    | some text => exact (ignores_pure _).reads
    | none => exact reads_readText_bind houtput (fun _ => (ignores_pure _).reads) fun e => ⟨_, rfl⟩
  exact Reads.map (hcontent.bind fun _ => (ignores_intoSection _ _ _).reads) some

theorem keeps_share (s : Config.Section) (content : Option Text) (report : Text) :
    Keeps kept w (share c s content report) :=
  Reads.keeps fun _ => reads_share c (fun _ _ h => h) s content report

/-! ## The report of a Dockerfile -/

theorem reads_documentReport (hsource : base.Misses w.place free o.dockerfile)
    (hfile : ∀ path, (Selection.resolve o.template none).file? = some path →
      base.Misses w.place free path)
    (htools : o.image = "" ∨ w.LeavesAlone kept) (hfree : Adapter.Overlooks w kept free) :
    Reads base kept free w (documentReport o) := by
  refine (Steps.reads_documentation hsource).bind fun d => ?_
  extract_lets selection report
  have hreport : ∀ stats, Reads base kept free w (report stats) := fun stats =>
    (ignores_noteTemplate o _ _).reads.bind fun _ => Steps.reads_imageReport hfile d stats _
  split
  next => exact (ignores_pure none).reads.bind hreport
  next himage =>
    have hw : w.LeavesAlone kept := htools.resolve_left fun hempty => himage (by simp [hempty])
    exact (ignores_analyze o hw hfree {} o.image).catching.reads.bind hreport

theorem keeps_documentReport (htools : o.image = "" ∨ w.LeavesAlone kept) :
    Keeps kept w (documentReport o) :=
  Reads.keeps fun _ => reads_documentReport o (fun _ _ h => h) (fun _ _ _ _ h => h) htools
    (Adapter.overlooks_none w kept)

/-- A run that ends well has a report, and the places that tools leave alone are as they were when
the report is put into the document. -/
theorem exists_report_of_document {o : GenerateOptions} (hwrites : o.dryRun = false)
    (hformat : OutputPath.isOwnFile (Selection.resolve o.template none).format = false)
    (htools : o.image = "" ∨ w.LeavesAlone kept)
    (h : exec (document o) w m = (.ok (), m')) :
    ∃ report m₁, m.files.Keeps kept m₁.files ∧
      exec (intoDocument o.output report) w m₁ = (.ok (), m') := by
  rw [document_eq] at h
  obtain ⟨report, m₁, hreport, hdeliver⟩ := exec_bind_eq_ok.1 h
  refine ⟨report, m₁, (keeps_documentReport o htools).of_exec hreport, ?_⟩
  rw [deliverDocument, if_neg (by simp [hwrites]), if_neg (by simp [hformat])] at hdeliver
  exact hdeliver

end Generate
end ContainerDocs

import ContainerDocs.Proofs.Analysis.Isolation
import ContainerDocs.Proofs.Analysis.Quiet
import ContainerDocs.Proofs.Program.Rerun
import ContainerDocs.Proofs.Report.CanShow

/-!
# Runs that end well

Nothing that a tool prints or writes makes the analysis of an image stop. It is the report that may
stop the run: a size can be too large to be printed, and a text can have no bytes. Short of that, a
run with a built-in template ends well if there is a place for its report.

## Main definitions

* `Generate.prepare` — what a run does before it looks for tools.
* `Generate.CanDeliver` — there is a place for the report of a run.

## Main statements

* `Generate.exists_exec_analyze` — the analysis of an image that is there has a result.
* `Generate.exec_deliverDocument` — a report that has bytes is delivered.
* `Generate.run_completes` — when a run ends well, and what stops it.
-/

namespace ContainerDocs

open Run

variable {w : World} {m m' : Machine} {o : GenerateOptions} {b : Builtin} {r : ImageReference}

/-! ## Sizes of merged statistics -/

namespace Analysis

open Outcome

variable {os : List Outcome} {s : ImageStats}

/-- What outcomes without a size are folded into keeps its size. -/
theorem sizeBytes_foldl_into (h : ∀ o ∈ os, ∀ t, o.result = .ok (some t) → t.sizeBytes = 0) :
    (os.foldl into s).sizeBytes = s.sizeBytes := by
  refine foldl_into_induction (P := fun t => t.sizeBytes = s.sizeBytes) (fun _ _ ht => ht) ?_ rfl
  intro o ho t hresult u hu
  rw [ImageStats.merge, ImageStats.orKeep, h o ho t hresult]
  exact hu

/-- If the outcomes are apart, the size that one of them has is that of the whole. -/
theorem sizeBytes_of_mem (h : os.Pairwise Apart) {o : Outcome} (ho : o ∈ os) {t : ImageStats}
    (hresult : o.result = .ok (some t)) (hsize : t.sizeBytes ≠ 0) :
    (os.foldl into s).sizeBytes = t.sizeBytes := by
  obtain ⟨before, after, rfl⟩ := List.append_of_mem ho
  have hafter := (List.pairwise_cons.1 (List.pairwise_append.1 h).2.1).1
  rw [List.foldl_append, List.foldl_cons, sizeBytes_foldl_into, into, hresult]
  · exact if_neg (by simpa using hsize)
  · intro o' ho' t' hresult'
    have hlacks := (hafter o' ho' t t' hresult hresult' .sizeBytes).resolve_left
    simpa [ImageStats.lacks] using hlacks (by simpa [ImageStats.lacks] using hsize)

/-- A size at the limit that one of the tools reports is that of the whole. -/
theorem limit_le_foldl_into {image : String} {there : Tool → Bool}
    (hos : List.Forall₂ (fun o tool => Reports image w ((Adapter.new tool {}).probe true) o) os
      (tools.filter there)) {o : Outcome} (ho : o ∈ os) {t : ImageStats}
    (hresult : o.result = .ok (some t)) (hlarge : Size.limit ≤ t.sizeBytes.natAbs) :
    Size.limit ≤ (os.foldl into s).sizeBytes.natAbs := by
  have hsize : t.sizeBytes ≠ 0 := by
    intro h
    rw [h] at hlarge
    exact absurd Size.limit_pos (Nat.not_lt.2 hlarge)
  have hapart : os.Pairwise Apart :=
    pairwise_apart (List.Nodup.filter _ (by decide)) (fun _ _ _ => probe_contributes)
      (List.sublistForall₂_iff.2 ⟨_, hos, List.Sublist.refl _⟩)
  rwa [sizeBytes_of_mem hapart ho hresult hsize]

/-- A template can show what outcomes are folded into if it can show each of them. -/
theorem canShow_foldl_into (image : String)
    (h : ∀ o ∈ os, ∀ t, o.result = .ok (some t) → b.CanShow t) :
    b.CanShow (os.foldl into { imageTag := image }).finalize := by
  refine (foldl_into_induction (P := b.CanShow) (fun s ws hs => ?_) ?_
    (.start b image)).finalize
  · exact ⟨hs.size, hs.wasted, hs.texts⟩
  · exact fun o ho t ht s hs => hs.merge (h o ho t ht)

end Analysis

/-! ## Analyses -/

namespace Generate

/-- What is done before tools look at an image: it has to be there. -/
def ready (o : GenerateOptions) (timeouts : Timeouts) (image : String) : Run Unit := do
  let _ ← Pull.ensureAll timeouts.scan o.ignoreErrors [image]
  Run.info ("Analyzing image: " ++ image ++ " ...")

theorem exists_exec_analyze (hw : w.IsQuiet) (hstrict : o.strict = false)
    (himage : Analysis.validate o.image = .ok r) {timeouts : Timeouts}
    (hthere : w.HasImage o.image timeouts.scan) (hm : m.cancelled = false) :
    ∃ os m₁ m₂ m', m₁.cancelled = false ∧ exec (ready o timeouts o.image) w m = (.ok (), m₁) ∧
      exec (Analysis.gather o.image (Analysis.standardProbes timeouts true) true) w m₁ =
        (.ok os, m₂) ∧
      exec (analyze o timeouts o.image) w m =
        (.ok (some (os.foldl Analysis.Outcome.into { imageTag := o.image }).finalize), m') := by
  obtain ⟨_, m₁, hready, hm₁, rfl⟩ :=
    (Pull.undisturbed_ensureAll hw himage hthere o.ignoreErrors).exists_exec hm
  let m₂ : Machine :=
    { m₁ with notes := (.info, "Analyzing image: " ++ o.image ++ " ...") :: m₁.notes }
  obtain ⟨os, m₃, m₄, hgather, hanalyze, hm₄⟩ := Analysis.exists_analyze hw himage timeouts
    (show m₂.cancelled = false from hm₁)
  have hbefore : exec (ready o timeouts o.image) w m = (.ok (), m₂) := by
    rw [ready, exec_bind, hready]
    rfl
  refine ⟨os, m₂, m₃, m₄, hm₁, hbefore, hgather, ?_⟩
  rw [analyze, exec_bind, hready]
  dsimp only [List.isEmpty_cons]
  rw [if_neg Bool.false_ne_true, exec_bind, Run.info, exec_note]
  dsimp only
  rw [exec_bind, hanalyze]
  dsimp only
  rw [exec_bind, giveUpIfCancelled, exec_bind, exec_isCancelled_of_isQuiet hw hm₄,
    hstrict]
  rfl

end Generate

/-! ## Reports about images -/

namespace Steps

variable {s : Selection} {a : ImageStats}

/-- A report about an image that the template can show has bytes. -/
theorem exists_imageReport (hfile : s.file? = none) (hb : Builtin.find? s.builtinName = some b)
    (ha : b.CanShow a) (d : Documentation) (options : ReportOptions) (w : World) (m : Machine) :
    ∃ report notes, report.IsWhole ∧
      exec (imageReport d (some a) options s) w m = (.ok report, { m with notes := notes }) := by
  obtain ⟨t, ht, hshows⟩ := Builtin.exists_template hb
  have hsizes : ∀ a' ∈ some a, ∃ text, a'.sizeText = .ok text := by
    rintro _ ⟨⟩
    exact Size.exists_megabytes_iff.2 ha.size
  obtain ⟨data, hdata⟩ := Report.exists_imageData d.items hsizes
  obtain ⟨report, hreport, hwhole⟩ := hshows d a options data ha hdata
  obtain ⟨notes, hexec⟩ := exec_imageReport_builtin hfile hb ht hdata hreport w m
  exact ⟨report, notes, hwhole, hexec⟩

/-- There is no report about an image whose size is too large. -/
theorem exec_imageReport_of_limit_le (hfile : s.file? = none)
    (hb : Builtin.find? s.builtinName = some b) (ha : Size.limit ≤ a.sizeBytes.natAbs)
    (d : Documentation) (options : ReportOptions) (w : World) (m : Machine) :
    (exec (imageReport d (some a) options s) w m).1 = .error (.crash (.size .outOfRange)) := by
  obtain ⟨t, ht, -⟩ := Builtin.exists_template hb
  have hsize : a.sizeText = .error .outOfRange := by
    cases hsize : a.sizeText with
    | error e => rw [Size.eq_outOfRange_of_megabytes hsize]
    | ok text => exact absurd (Size.exists_megabytes_iff.1 ⟨text, hsize⟩) (Nat.not_lt.2 ha)
  have hvalues : Report.imageValues? d (some a) options = .error (.crash (.size .outOfRange)) := by
    simp only [Report.imageValues?, Report.imageData, Report.statsData, hsize]
    rfl
  rw [imageReport, exec_bind, exec_template_builtin hfile hb ht]
  dsimp only
  rw [exec_bind, hvalues]
  rfl

end Steps

/-! ## Deliveries -/

/-- A whole report in a whole document is whole. -/
theorem Section.isWhole_inject {document report content : Text} {name : String}
    (hdocument : document.IsWhole) (hreport : report.IsWhole)
    (h : inject document name report = .ok content) : content.IsWhole := by
  rw [inject] at h
  split at h
  next before after hregion =>
    obtain ⟨inside, rfl⟩ := exists_inside hregion
    cases h
    simp only [Text.isWhole_append] at hdocument
    simp only [written, Text.isWhole_append]
    exact ⟨⟨hdocument.1.1.1.1, ⟨⟨⟨Text.isWhole_ofString _, Text.isWhole_ofString _⟩,
      hreport.trim _⟩, Text.isWhole_ofString _⟩, Text.isWhole_ofString _⟩, hdocument.2⟩
  next => cases h

namespace Run

variable {path : String} {text : Text}

theorem exec_printLine_of_isWhole (h : text.IsWhole) (w : World) (m : Machine) :
    (exec (printLine text) w m).1 = .ok () := by
  have hline : Encoding.encode (text ++ Text.ofString "\n") =
      .ok (Encoding.bytesOf (text ++ Text.ofString "\n")) :=
    Encoding.encode_eq_ok_iff.2 ⟨h.append (Text.isWhole_ofString _), rfl⟩
  rw [exec_printLine, hline]

/-- A whole text is written where a file can be, and that is noted. -/
theorem exec_writeText_info (h : text.IsWhole)
    (hwrite : ∃ files, m.files.write w.place path (Encoding.bytesOf text) = .ok files)
    (line : String) :
    (exec (writeText path text >>= fun _ => info line) w m).1 = .ok () := by
  obtain ⟨files, hfiles⟩ := hwrite
  rw [exec_bind, exec_writeText_eq_ok_iff.2 ⟨h, files, hfiles, rfl⟩]
  rfl

end Run

namespace Generate

/-- There is a place for the report of a run in a format: it is printed, or the file of its own can
be written, or the document can be read, if there is one, and no tool touches it. -/
inductive CanDeliver (o : GenerateOptions) (w : World) (fs : Files) (format : ReportFormat) :
    Prop where
  | printed (h : o.dryRun = true)
  | ownFile {p : Place} (hown : OutputPath.isOwnFile format = true)
      (hplace : fs.resolve w.place (OutputPath.ofReport o.output format) = .ok p)
      (hfile : fs.find? p ≠ some .directory)
  | document {p : Place} (hown : OutputPath.isOwnFile format = false)
      (hplace : fs.resolve w.place o.output = .ok p) (halone : w.LeavesAlone (· = p))
      (hdocument : fs.find? p = none ∨ ∃ s, fs.readText w.place o.output = .ok s)

/-- Tools leave the place for a report as it is. -/
theorem CanDeliver.exists_keeps {fs : Files} {format : ReportFormat}
    (h : CanDeliver o w fs format) :
    ∃ kept, w.LeavesAlone kept ∧ ∀ fs', fs.Keeps kept fs' → CanDeliver o w fs' format := by
  have hnowhere : w.LeavesAlone fun _ => False := fun _ _ _ _ _ _ _ _ _ h => h
  cases h with
  | printed h => exact ⟨_, hnowhere, fun _ _ => .printed h⟩
  | ownFile hown hplace hfile =>
    refine ⟨_, hnowhere, fun fs' hkeeps => .ownFile hown (hkeeps.resolve hplace) ?_⟩
    rwa [Ne, hkeeps.directory]
  | document hown hplace halone hdocument =>
    refine ⟨_, halone, fun fs' hkeeps => .document hown (hkeeps.resolve hplace) halone ?_⟩
    rwa [hkeeps.find?_eq _ rfl, hkeeps.readText hplace rfl]

/-- A whole report is put into a document that can be read, or printed if there is none. -/
theorem exec_intoDocument_of_isWhole {path : String} {report : Text} {p : Place}
    (hreport : report.IsWhole) (hplace : m.files.resolve w.place path = .ok p)
    (hdocument : m.files.find? p = none ∨ ∃ s, m.files.readText w.place path = .ok s) :
    (exec (intoDocument path report) w m).1 = .ok () := by
  rw [intoDocument, exec_bind, readDocument?, exec_bind, exec_readText]
  obtain hnone | ⟨s, hs⟩ := hdocument
  · have hread : m.files.readText w.place path = .error (.system (.missing path)) := by
      rw [Files.readText, Files.read_eq hplace, hnone]
      rfl
    rw [hread]
    dsimp only
    rw [if_pos rfl, exec_pure]
    dsimp only
    rw [exec_bind]
    exact exec_printLine_of_isWhole hreport w _
  · rw [hs]
    dsimp only [exec_pure]
    cases hinject : Section.inject (Text.ofString s) "" report with
    | error f =>
      dsimp only
      rw [exec_bind]
      exact exec_printLine_of_isWhole hreport w _
    | ok content =>
      have hwhole := Section.isWhole_inject (Text.isWhole_ofString s) hreport hinject
      obtain ⟨bytes, hbytes⟩ : ∃ bytes, m.files.read w.place path = .ok bytes := by
        cases hread : m.files.read w.place path with
        | error e =>
          rw [Files.readText, hread] at hs
          cases hs
        | ok bytes => exact ⟨bytes, rfl⟩
      exact exec_writeText_info hwhole (Files.exists_write_of_read hbytes _) _

/-- A whole report is delivered if there is a place for it. -/
theorem exec_deliverDocument {report : Text} (hreport : report.IsWhole)
    (h : CanDeliver o w m.files (Selection.resolve o.template none).format) :
    (exec (deliverDocument o report) w m).1 = .ok () := by
  rw [deliverDocument]
  by_cases hdry : o.dryRun = true
  · rw [if_pos hdry]
    exact exec_printLine_of_isWhole hreport w m
  · rw [if_neg hdry]
    cases h with
    | printed h => exact absurd h hdry
    | ownFile hown hplace hfile =>
      rw [if_pos hown]
      exact exec_writeText_info hreport ⟨_, (Files.write_eq hplace _).trans (if_neg hfile)⟩ _
    | document hown hplace _ hdocument =>
      rw [if_neg (Bool.eq_false_iff.1 hown)]
      exact exec_intoDocument_of_isWhole hreport hplace hdocument

/-! ## Runs -/

/-- What a run does before it looks for tools: it reads the Dockerfile, takes an interruption as a
wish to cancel from then on, and makes sure that the image is there. -/
def prepare (o : GenerateOptions) : Run Unit := do
  let _ ← Steps.documentation o.dockerfile
  modify fun m => { m with catching := true, cancelled := false }
  ready o {} o.image

/-- The report of a run is one about the Dockerfile and about all that the tools report. -/
theorem exists_exec_documentReport {source : String} (hw : w.IsQuiet) (hstrict : o.strict = false)
    (hsource : m.files.readText w.place o.dockerfile = .ok source)
    (himage : Analysis.validate o.image = .ok r)
    (hthere : w.HasImage o.image ({} : Timeouts).scan) :
    ∃ os m₁ m₂ m₃, m₁.cancelled = false ∧ exec (prepare o) w m = (.ok (), m₁) ∧
      exec (Analysis.gather o.image (Analysis.standardProbes {} true) true) w m₁ = (.ok os, m₂) ∧
      exec (documentReport o) w m = exec (Steps.imageReport (Dockerfile.parse source).documentation
        (some (os.foldl Analysis.Outcome.into { imageTag := o.image }).finalize)
        ⟨o.noSymbols, o.badgeUrl.getD ""⟩ (Selection.resolve o.template none)) w m₃ := by
  have hnamed : ¬o.image.isEmpty = true := by
    intro hempty
    rw [String.isEmpty_iff.1 hempty] at himage
    cases himage
  obtain ⟨notes, hd⟩ := Steps.exec_documentation hsource
  let m₂ : Machine := { m with notes := notes, catching := true, cancelled := false }
  obtain ⟨os, m₃, m₄, m₅, hm₃, hready, hgather, hanalyze⟩ :=
    exists_exec_analyze hw hstrict himage hthere (show m₂.cancelled = false from rfl)
  have hprepare : exec (prepare o) w m = (.ok (), m₃) := by
    have hcatching : exec (modify fun m => { m with catching := true, cancelled := false } :
        Run Unit) w { m with notes := notes } = (.ok (), m₂) := rfl
    rw [prepare, exec_bind, hd]
    dsimp only
    rw [exec_bind, hcatching]
    exact hready
  obtain ⟨notes', hnote⟩ := exists_notes_of_noteTemplate o (Selection.resolve o.template none)
    Config.imageType w { m₅ with catching := false }
  refine ⟨os, m₃, m₄, { m₅ with catching := false, notes := notes' }, hm₃, hprepare, hgather, ?_⟩
  rw [documentReport, exec_bind, hd]
  dsimp only
  rw [if_neg hnamed, exec_bind, exec_catching, hanalyze]
  dsimp only
  rw [exec_bind, hnote]

/-- Whatever the tools print or write about an image that is there, a run with a built-in template
that is not strict prints one report: it shows what the tools that are there report, and a tool that
fails leaves its warning and nothing else. The run ends well if the template can show what each tool
reports. A size that is too large stops it, be it that of any outcome or that which the runtime
prints. -/
theorem run_completes {source : String} (hw : w.IsQuiet)
    (hconfig : Selection.filled o.config = none) (hstrict : o.strict = false)
    (hfile : (Selection.resolve o.template none).file? = none)
    (hb : Builtin.find? (Selection.resolve o.template none).builtinName = some b)
    (hsource : m.files.readText w.place o.dockerfile = .ok source)
    (himage : Analysis.validate o.image = .ok r)
    (hthere : w.HasImage o.image ({} : Timeouts).scan)
    (hplace : CanDeliver o w m.files b.format) :
    ∃ os m₁ m₂ m₃, exec (prepare o) w m = (.ok (), m₁) ∧
      exec (Analysis.gather o.image (Analysis.standardProbes {} true) true) w m₁ = (.ok os, m₂) ∧
      List.Forall₂ (fun o' tool => Analysis.Reports o.image w ((Adapter.new tool {}).probe true) o')
        os (Analysis.tools.filter fun tool => (Adapter.new tool {}).isThere w m₁.files) ∧
      let stats := (os.foldl Analysis.Outcome.into { imageTag := o.image }).finalize
      exec (run o) w m = exec (Steps.imageReport (Dockerfile.parse source).documentation
        (some stats) ⟨o.noSymbols, o.badgeUrl.getD ""⟩ (Selection.resolve o.template none) >>=
          deliverDocument o) w m₃ ∧
      stats.withoutWarnings = ((os.filter Analysis.Outcome.succeeds).foldl Analysis.Outcome.into
        { imageTag := o.image }).finalize.withoutWarnings ∧
      stats.warnings = os.flatMap Analysis.Outcome.warnings ∧
      ((∀ o' ∈ os, ∀ s, o'.result = .ok (some s) → b.CanShow s) →
        (exec (run o) w m).1 = .ok ()) ∧
      ((∃ o' ∈ os, ∃ s, o'.result = .ok (some s) ∧ Size.limit ≤ s.sizeBytes.natAbs) →
        (exec (run o) w m).1 = .error (.crash (.size .outOfRange))) ∧
      (w.Inspects o.image ({} : Timeouts).inspect (fun s => Size.limit ≤ s.sizeBytes.natAbs) →
        (exec (run o) w m).1 = .error (.crash (.size .outOfRange))) := by
  obtain ⟨os, m₁, m₂, m₃, hm₁, hprepare, hgather, hreport⟩ :=
    exists_exec_documentReport hw hstrict hsource himage hthere
  have hos := Analysis.gather_there hw himage hm₁ hgather
  have hrun : exec (run o) w m = exec (documentReport o >>= deliverDocument o) w m := by
    rw [run, hconfig]
    exact congrArg (exec · w m) (document_eq o)
  have hreported : exec (run o) w m = exec
      (Steps.imageReport (Dockerfile.parse source).documentation
      (some (os.foldl Analysis.Outcome.into { imageTag := o.image }).finalize)
      ⟨o.noSymbols, o.badgeUrl.getD ""⟩ (Selection.resolve o.template none) >>=
        deliverDocument o) w m₃ := by
    rw [hrun, exec_bind, exec_bind, hreport]
  have hstops : (∃ o' ∈ os, ∃ s, o'.result = .ok (some s) ∧ Size.limit ≤ s.sizeBytes.natAbs) →
      (exec (run o) w m).1 = .error (.crash (.size .outOfRange)) := by
    rintro ⟨o', ho', s, hs, hlarge⟩
    have hstop := Steps.exec_imageReport_of_limit_le hfile hb
      (a := (os.foldl Analysis.Outcome.into { imageTag := o.image }).finalize)
      (Analysis.limit_le_foldl_into hos ho' hs hlarge) (Dockerfile.parse source).documentation
      ⟨o.noSymbols, o.badgeUrl.getD ""⟩ w m₃
    rw [hreported, exec_bind]
    rcases hexec : exec (Steps.imageReport _ _ _ _) w m₃ with ⟨e | report, m₄⟩ <;>
      rw [hexec] at hstop <;> cases hstop
    rfl
  refine ⟨os, m₁, m₂, m₃, hprepare, hgather, hos, hreported, ?_, ?_, fun hshow => ?completes,
    hstops, fun hinspects => hstops ?_⟩
  · exact congrArg ImageStats.finalize (Analysis.foldl_into_filter_succeeds _ _).symm
  · exact Analysis.foldl_into_warnings _ _
  case completes =>
    obtain ⟨report, notes, hwhole, hexec⟩ := Steps.exists_imageReport hfile hb
      (Analysis.canShow_foldl_into o.image hshow) (Dockerfile.parse source).documentation
      ⟨o.noSymbols, o.badgeUrl.getD ""⟩ w m₃
    rw [hexec] at hreport
    -- Before the delivery, only tools have touched files.
    obtain ⟨kept, halone, hkeeps⟩ := hplace.exists_keeps
    have hdeliver := hkeeps _ ((keeps_documentReport o (.inr halone)).of_exec hreport)
    rw [hrun, exec_bind, hreport]
    refine exec_deliverDocument hwhole ?_
    rwa [Steps.format_builtin hfile hb]
  · obtain ⟨o', ho', s, hs, hlarge⟩ :=
      Analysis.exists_outcome_of_inspects hw himage hinspects hm₁ hgather
    exact ⟨o', ho', s, hs, hlarge⟩

/-- A world in which the runtime has an image and prints a text about it, and nothing else works. -/
def inspecting (image printed : String) : World where
  respond _ command :=
    if command = ["docker", "inspect", "--type=image", image] then .runs {}
    else if command = ["docker", "inspect", image] then
      .runs { output := Encoding.encodeString printed }
    else .fails (.missing "")
  find? name := if name = "docker" then some "/usr/bin/docker" else none
  environment := []
  directory := "/"
  now _ := ⟨⟨2024, 1, 1⟩, 0, 0, 0, 0, none⟩

section Inspecting

variable {image printed : String}

theorem isQuiet_inspecting : (inspecting image printed).IsQuiet := by
  refine ⟨fun before argv b hb => ?_, rfl⟩
  dsimp only [inspecting] at hb
  split_ifs at hb <;> cases hb <;> rfl

theorem hasImage_inspecting : (inspecting image printed).HasImage image ({} : Timeouts).scan := by
  refine ⟨"docker", rfl, fun before => ⟨{}, if_pos rfl, rfl, fun t ht => ?_⟩⟩
  have hlimit : deadline? 0 ({} : Timeouts).scan = some 300 := by decide +kernel
  rw [hlimit] at ht
  cases ht
  exact ⟨by decide, by decide⟩

theorem eq_of_respond_inspecting {before : List (List String)} {binary : String} {b : Behaviour}
    (h : (inspecting image printed).respond before [binary, "inspect", image] = .runs b) :
    binary = "docker" ∧ b.output = Encoding.encodeString printed := by
  dsimp only [inspecting] at h
  split_ifs at h with hpresent hinspect
  · simp at hpresent
  · cases h
    exact ⟨(List.cons.inj hinspect).1, rfl⟩

end Inspecting

/-- A run about an image that the runtime prints a size of. -/
theorem run_completes_of_inspection :
    let w := inspecting "app:1" "[\x7b\"Size\": 2048\x7d]"
    let m : Machine :=
      { files := ⟨[(["Dockerfile"], .file (Encoding.encodeString "FROM a\n") false)]⟩ }
    let o : GenerateOptions := { image := "app:1", template := some "json" }
    w.IsQuiet ∧ w.HasImage o.image ({} : Timeouts).scan ∧ CanDeliver o w m.files .json ∧
      (exec (run o) w m).1 = .ok () := by
  intro w m o
  have hfile : (Selection.resolve o.template none).file? = none := by decide +kernel
  have hname : (Selection.resolve o.template none).builtinName = "json" := by decide +kernel
  obtain ⟨b, hb, hformat, hterse⟩ : ∃ b, Builtin.find? "json" = some b ∧
      b.format = .json ∧ b.name ∉ Builtin.verbose := ⟨_, rfl, rfl, by decide⟩
  have hsource : m.files.readText w.place o.dockerfile = .ok "FROM a\n" := by
    have hbytes : m.files.read w.place o.dockerfile =
        .ok (Encoding.encodeString "FROM a\n") := by
      decide +kernel
    have hs : Encoding.decodeString (Encoding.encodeString "FROM a\n") = .ok "FROM a\n" := by
      decide +kernel
    rw [Files.readText_eq hbytes, hs]
    rfl
  obtain ⟨r, himage⟩ : ∃ r, Analysis.validate o.image = .ok r := exists_of_isOk (by decide +kernel)
  have hplace : CanDeliver o w m.files .json :=
    .ownFile (p := ["README.json"]) rfl (by decide +kernel) (by decide +kernel)
  obtain ⟨os, m₁, -, -, -, -, hos, -, -, -, hcompletes, -⟩ :=
    run_completes isQuiet_inspecting rfl rfl hfile (hname ▸ hb) hsource himage hasImage_inspecting
      (hformat ▸ hplace)
  refine ⟨isQuiet_inspecting, hasImage_inspecting, hplace, hcompletes fun o' ho' s hs => ?_⟩
  refine ⟨?_, fun h => absurd h hterse, fun h => absurd h hterse⟩
  obtain ⟨tool, -, hreports⟩ := Analysis.exists_report
    (List.sublistForall₂_iff.2 ⟨_, hos, List.Sublist.refl _⟩) ho'
  by_cases htool : tool = .runtime
  · subst htool
    obtain ⟨a, m₁, m₂, ha, hrun⟩ := Analysis.exists_run_of_reports hreports hs
    obtain ⟨binary, before, b', r', hrespond, -, hread, rfl⟩ :=
      Adapter.exists_inspection isQuiet_inspecting ha hrun
    obtain ⟨rfl, houtput⟩ := eq_of_respond_inspecting hrespond
    rw [houtput] at hread
    let inspected :=
      InspectReport.read .usual (Encoding.encodeString "[\x7b\"Size\": 2048\x7d]") o.image "docker"
    have hsize : inspected.toOption.map (fun r => (r.stats o.image).sizeBytes) = some 2048 := by
      decide +kernel
    have hread : inspected = .ok r' := hread
    rw [hread] at hsize
    have hsmall : (r'.stats o.image).sizeBytes = 2048 := Option.some.inj hsize
    rw [hsmall]
    decide +kernel
  · have hlacks := (Analysis.probe_contributes hreports hs).lacks (f := .sizeBytes) (Ne.symm htool)
    rw [beq_iff_eq.1 hlacks]
    exact Size.limit_pos

/-- Half of a surrogate pair in what the runtime prints is taken for a text, which stops the run
when the report is printed. -/
theorem run_stopped_by_half :
    let w := inspecting "app:1" "[\x7b\"Architecture\": \"\\ud800\"\x7d]"
    let m : Machine :=
      { files := ⟨[(["Dockerfile"], .file (Encoding.encodeString "FROM a\n") false)]⟩ }
    let o : GenerateOptions := { image := "app:1", dryRun := true }
    w.IsQuiet ∧ (Analysis.validate o.image).isOk = true ∧
      w.HasImage o.image ({} : Timeouts).scan ∧
      (exec (run o) w m).1 = .error (.crash (.encode ⟨.ofNat 0xD800, 164, 1⟩)) :=
  ⟨isQuiet_inspecting, by decide +kernel, hasImage_inspecting, by decide +kernel⟩

end Generate
end ContainerDocs

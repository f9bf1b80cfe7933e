import ContainerDocs.Program.Exit
import ContainerDocs.Proofs.Analysis.Commands
import ContainerDocs.Proofs.Program.Parts

/-!
# The commands of a run

A run starts commands for the image that its arguments name or for the images that its configuration
names, and only for those of them that are accepted.

## Main definitions

* `Config.tags` — the images that a configuration names.
* `Program.images` — the images that the program is asked to analyze.

## Main statements

* `Generate.starts_sections` — what the sections of a configuration start.
* `Action.run_starts`, `Program.run_starts` — what an action and the program start.
* `Program.run_commands` — no command is for an image that is not accepted.
-/

namespace ContainerDocs

open Run

def Config.Section.tags (s : Config.Section) : List String :=
  (Selection.filled s.tag).toList ++ s.images.map (·.tag)

def Config.tags (c : Config) : List String := c.sections.flatMap (·.tags)

variable {allowed : List String → Prop} {w : World} {named : List String}

/-! ## Steps on files -/

namespace Steps

theorem starts_orFail {α : Type} (r : Except Failure α) : Starts allowed w (orFail r) := by
  cases r with
  | ok a => exact starts_pure a
  | error f => exact starts_fail f

theorem starts_documentation (path : String) : Starts allowed w (documentation path) := by
  refine (starts_readText path).bind fun content => ?_
  split
  · exact starts_fail _
  · refine (starts_notes _ _ _).bind fun _ => (starts_notes _ _ _).bind fun _ => ?_
    exact (starts_note _ _).bind fun _ => starts_pure _

theorem starts_template (s : Selection) (kind : ReportKind) :
    Starts allowed w (template s kind) := by
  rw [template]
  split
  · exact starts_orFail _
  · refine (starts_readText _).bind fun content => ?_
    split
    · exact starts_fail _
    · exact starts_orFail _

theorem starts_validateTemplate (path : String) : Starts allowed w (validateTemplate path) := by
  refine starts_get.bind fun m => starts_place.bind fun here => ?_
  extract_lets checked
  have hchecked : ∀ u, Starts allowed w (checked u) :=
    fun _ => (starts_template _ _).bind fun _ => starts_pure _
  exact .ite ((starts_fail _).bind hchecked) (hchecked ())

theorem starts_imageReport (d : Documentation) (stats : Option ImageStats) (options : ReportOptions)
    (s : Selection) : Starts allowed w (imageReport d stats options s) := by
  refine (starts_template s .image).bind fun t => (starts_ofExcept _).bind fun values => ?_
  exact (starts_note _ _).bind fun _ => starts_ofExcept _

theorem starts_comparisonReport (stats : List ImageStats) (labels : List String)
    (options : ReportOptions) (s : Selection) :
    Starts allowed w (comparisonReport stats labels options s) :=
  (starts_template s .comparison).bind fun _ => starts_ofExcept _

end Steps

/-! ## Generating documentation -/

namespace Generate

variable (o : GenerateOptions) (c : Config) (directory : String)

theorem starts_giveUpIfCancelled : Starts allowed w giveUpIfCancelled :=
  starts_isCancelled.bind fun _ => .ite (starts_throw _) (starts_pure _)

theorem starts_noteTemplate (s : Selection) (type : String) :
    Starts allowed w (noteTemplate o s type) :=
  .ite (starts_note _ _) (starts_pure _)

theorem starts_analyze {image : String} (himage : image ∈ named) (timeouts : Timeouts) :
    Starts (IsAllowed w named) w (analyze o timeouts image) := by
  have htags : ∀ tag ∈ [image], tag ∈ named := by simpa using himage
  refine (Pull.starts_ensureAll _ _ htags).bind fun ready => .ite (starts_pure _) ?_
  refine (starts_note _ _).bind fun _ => ?_
  have hsearch := Analysis.searchStarts_standard (w := w) timeouts true
  refine (Analysis.starts_analyze hsearch himage true none).bind fun stats => ?_
  refine starts_giveUpIfCancelled.bind fun _ => ?_
  exact (Steps.starts_orFail _).bind fun _ => starts_pure _

theorem starts_writeReport (path : String) (report : Text) :
    Starts allowed w (writeReport path report) :=
  (starts_writeText _ _).bind fun _ => starts_note _ _

theorem starts_updateDocument (path : String) (content : Text) :
    Starts allowed w (updateDocument path content) :=
  (starts_writeText _ _).bind fun _ => starts_note _ _

/-! ### One Dockerfile -/

theorem starts_intoDocument (path : String) (report : Text) :
    Starts allowed w (intoDocument path report) := by
  have hread : Starts allowed w (readDocument? path) := by
    refine (starts_readText path).bind fun r => ?_
    split
    · exact starts_pure _
    · exact .ite (starts_pure _) (starts_fail _)
  refine hread.bind fun content => ?_
  split
  · exact (starts_note _ _).bind fun _ => starts_printLine _
  · split
    · exact (starts_note _ _).bind fun _ => starts_printLine _
    · exact starts_updateDocument _ _

theorem starts_document (himage : o.image ∈ named) :
    Starts (IsAllowed w named) w (document o) := by
  have hreport : Starts (IsAllowed w named) w (documentReport o) := by
    refine (Steps.starts_documentation _).bind fun d => ?_
    extract_lets selection report
    have hreport : ∀ stats, Starts (IsAllowed w named) w (report stats) := fun stats =>
      (starts_noteTemplate o _ _).bind fun _ => Steps.starts_imageReport d stats _ _
    split
    · exact (starts_pure none).bind hreport
    · exact (starts_analyze o himage {}).catching.bind hreport
  rw [document_eq]
  refine hreport.bind fun report => ?_
  rw [deliverDocument]
  exact .ite (starts_printLine _) (.ite (starts_writeReport _ _) (starts_intoDocument _ _))

/-! ### A configuration -/

theorem starts_opening (path : String) : Starts allowed w (opening path) := by
  have hdirectory : Starts allowed w (Config.directoryOf path) :=
    starts_read.bind fun _ => starts_pure _
  have hconfig : Starts allowed w (Config.ofFile path) := by
    refine (starts_readText path).bind fun r => ?_
    split
    · exact starts_fail _
    · exact starts_read.bind fun _ => hdirectory.bind fun _ => starts_ofExcept _
  refine (starts_note _ _).bind fun _ => hconfig.bind fun c => ?_
  exact hdirectory.bind fun _ => starts_pure _

theorem starts_imageSection {s : Config.Section} (h : ∀ tag ∈ s.tags, tag ∈ named)
    (selection : Selection) (options : ReportOptions) :
    Starts (IsAllowed w named) w (imageSection o c directory s selection options) := by
  refine (Steps.starts_documentation _).bind fun d => ?_
  extract_lets report
  have hreport : ∀ stats, Starts (IsAllowed w named) w (report stats) :=
    fun stats => Steps.starts_imageReport d stats options selection
  split
  next tag htag =>
    have hmem : tag ∈ s.tags := List.mem_append_left _ (by simp [htag])
    exact (starts_analyze o (h tag hmem) c.timeouts).bind hreport
  next => exact (starts_pure none).bind hreport

theorem starts_comparisonSection {s : Config.Section} (h : ∀ tag ∈ s.tags, tag ∈ named)
    (index : Nat) (selection : Selection) (options : ReportOptions) :
    Starts (IsAllowed w named) w (comparisonSection o c index s selection options) := by
  rw [comparisonSection]
  split
  · exact (starts_note _ _).bind fun _ => starts_pure _
  · have htags : ∀ tag ∈ s.images.map (·.tag), tag ∈ named :=
      fun tag htag => h tag (List.mem_append_right _ htag)
    refine (Pull.starts_ensureAll _ _ htags).bind fun ready => ?_
    extract_lets compared tags probes
    have hjobs : ∀ i ∈ tags.map fun tag => (tag, probes),
        i.1 ∈ named ∧ ∀ probe ∈ i.2, Analysis.SearchStarts w probe := by
      intro i hi
      obtain ⟨tag, htag, rfl⟩ := List.mem_map.1 hi
      obtain ⟨image, himage, rfl⟩ := List.mem_map.1 htag
      have hmem : image.tag ∈ s.images.map (·.tag) :=
        List.mem_map_of_mem (List.mem_of_mem_filter himage)
      exact ⟨htags _ hmem, Analysis.searchStarts_standard c.timeouts true⟩
    split
    · exact starts_pure _
    · refine (starts_note _ _).bind fun _ => ?_
      refine (Analysis.starts_compare true hjobs).bind fun stats => ?_
      refine starts_giveUpIfCancelled.bind fun _ => (Steps.starts_orFail _).bind fun _ => ?_
      exact (Steps.starts_comparisonReport _ _ _ _).bind fun _ => starts_pure _

theorem starts_sectionStep {s : Config.Section} (h : ∀ tag ∈ s.tags, tag ∈ named) (index : Nat)
    (content : Option Text) :
    Starts (IsAllowed w named) w (sectionStep o c directory index content s) := by
  have hreport : Starts (IsAllowed w named) w (reportOf o c directory index s) := by
    refine (starts_noteTemplate o _ _).bind fun _ => ?_
    rw [sectionReport]
    refine .ite ?_ (.ite (starts_comparisonSection o c h index _ _) ?_)
    · exact (starts_imageSection o c directory h _ _).bind fun _ => starts_pure _
    · exact (starts_note _ _).bind fun _ => starts_pure _
  refine hreport.bind fun report => ?_
  split
  · exact starts_pure _
  · rw [deliver]
    split
    · refine Starts.bind (.ite ?_ (starts_writeReport _ _)) fun _ => starts_pure _
      exact (starts_printLine _).bind fun _ => starts_printLine _
    · have hcontent : Starts (IsAllowed w named) w (contentOf c.output content) := by
        cases content with
        | some text => exact starts_pure _
        | none =>
          refine (starts_readText _).bind fun r => ?_
          split
          · exact starts_pure _
          · exact starts_fail _
      refine Starts.map (hcontent.bind fun text => ?_) some
      rw [intoSection]
      split
      · exact starts_pure _
      · exact (starts_note _ _).bind fun _ => starts_pure _

/-- The sections of a configuration start commands for those of their images that are accepted. -/
theorem starts_sections {ss : List Config.Section} (h : ∀ s ∈ ss, ∀ tag ∈ s.tags, tag ∈ named)
    (index : Nat) (content : Option Text) :
    Starts (IsAllowed w named) w (sectionsOf o c directory index content ss) := by
  induction ss generalizing index content with
  | nil => exact starts_pure _
  | cons s rest ih =>
    obtain ⟨hs, hrest⟩ := List.forall_mem_cons.1 h
    rw [sectionsOf_cons]
    exact (starts_sectionStep o c directory hs index content).bind fun content => ih hrest _ content

theorem starts_finish (content : Option Text) : Starts allowed w (finish o c content) := by
  cases content with
  | none => exact starts_pure ()
  | some content => exact .ite (starts_printLine _) (starts_updateDocument _ _)

/-- The images that a run is asked to analyze: the one that is named, or those of the configuration
if that can be read. -/
def images (w : World) (m : Machine) : List String :=
  match Selection.filled o.config with
  | none => [o.image]
  | some path =>
    match (exec (opening path) w m).1 with
    | .ok (c, _) => c.tags
    | .error _ => []

theorem run_starts (m : Machine) :
    m.Starts (IsAllowed w (images o w m)) (exec (run o) w m).2 := by
  rw [run, images]
  cases Selection.filled o.config with
  | none => exact (starts_document o (List.mem_singleton_self _) m).1
  | some path =>
    dsimp only
    rw [fromConfig_eq, exec_bind]
    -- The reading of the configuration starts nothing.
    have hopening : ∀ allowed, m.Starts allowed (exec (opening path) w m).2 :=
      fun _ => (starts_opening path m).1
    rcases hopen : exec (opening path) w m with ⟨e | ⟨c, directory⟩, m₁⟩ <;> rw [hopen] at hopening
    · exact hopening _
    · refine (hopening _).trans ?_
      have hsections : Starts (IsAllowed w c.tags) w (sectionsOf o c directory 0 none c.sections) :=
        starts_sections o c directory (fun s hs tag htag => List.mem_flatMap.2 ⟨s, hs, htag⟩) 0 none
      exact ((hsections.catching.bind fun content => starts_finish o c content) m₁).1

end Generate

/-! ## The program -/

def Action.images (w : World) (m : Machine) : Action → List String
  | .generate o => Generate.images o w m
  | _ => []

theorem starts_printLines (lines : List String) : Starts allowed w (printLines lines) := by
  rw [printLines]
  induction lines with
  | nil => exact starts_pure ()
  | cons line lines ih => exact (starts_printLine _).bind fun _ => ih

/-- Only the generation of documentation starts commands. -/
theorem Action.run_starts (a : Action) (m : Machine) :
    m.Starts (IsAllowed w (a.images w m)) (exec a.run w m).2 := by
  cases a with
  | generate o => exact Generate.run_starts o m
  | help c => exact (starts_printLine _ m).1
  | listTemplates => exact (starts_printLines _ m).1
  | exportTemplate name kind =>
    exact (((Steps.starts_orFail _).bind fun source => starts_print _) m).1
  | validateTemplate path =>
    exact (((Steps.starts_validateTemplate path).bind fun _ => starts_printLine _) m).1
  | check => exact ((Tools.starts_status.bind fun status => starts_printLines _) m).1
  | version => exact (starts_printLines _ m).1

namespace Program

def images (arguments : List String) (w : World) (m : Machine) : List String :=
  match CommandLine.read arguments with
  | .ok call => call.action.images w m
  | .error _ => []

theorem run_starts (arguments : List String) (m : Machine) :
    m.Starts (IsAllowed w (images arguments w m)) (run arguments w m).machine := by
  rw [run, images]
  cases CommandLine.read arguments with
  | error e => exact .refl m
  | ok call =>
    have hstarts := Action.run_starts (w := w) call.action m
    have hexit : ∀ r : Except Stop Unit × Machine, (exit call.verbose r.1 r.2).machine = r.2 := by
      rintro ⟨e | u, m₁⟩ <;> rfl
    rw [← hexit] at hstarts
    exact hstarts

/-- Every command that the program starts, whatever its arguments, the files and the tools are, is
for an image that it is asked to analyze and that is accepted. The image is one whole argument of
the command; only the socket of the virtual machine is asked for without an image. No command is for
an image that is not accepted. -/
theorem run_commands (arguments : List String) (w : World) (m : Machine) :
    ∃ further, (run arguments w m).machine.commands = further ++ m.commands ∧
      (∀ argv ∈ further, ∃ image ∈ images arguments w m, (Analysis.validate image).isOk = true ∧
        (argv = ["podman", "machine", "inspect"] ∨ ∃ (u : ImageUse) (program : String),
          u.tool.IsAt w program ∧ argv = u.front program ++ image :: u.back)) ∧
      ∀ tag, (Analysis.validate tag).isOk = false →
        ∀ argv ∈ further, ∀ (u : ImageUse) (program : String), argv ≠ u.command program tag := by
  obtain ⟨further, hfurther, hall⟩ := run_starts (w := w) arguments m
  refine ⟨further, hfurther, hall, fun tag htag argv hargv u program hcommand => ?_⟩
  obtain ⟨image, -, hvalid, hsocket | ⟨u', program', -, hargv⟩⟩ := hall argv hargv
  · exact u.command_ne_socketCommand program tag (hcommand.symm.trans hsocket)
  · rw [ImageUse.eq_of_command_eq (hcommand.symm.trans hargv), hvalid] at htag
    cases htag

end Program
end ContainerDocs

import ContainerDocs.Program.Generate
import ContainerDocs.Proofs.System.Run

/-!
# The parts of a run

A run for one Dockerfile makes a report and delivers it. A run with a configuration reads the
configuration, goes through its sections one by one and finishes with the document that they have
been put into.

## Main definitions

* `Generate.opening`, `Generate.finish` — the start and the end of a run with a configuration.
* `Generate.reportOf`, `Generate.deliver` — what is done for one section; `Generate.share` puts its
  report into the document.
* `Generate.ownPath?`, `Generate.ownPaths` — the files that sections have of their own.
* `Generate.documentReport`, `Generate.deliverDocument` — the parts of a run for one Dockerfile.

## Main statements

* `Generate.fromConfig_eq`, `Generate.sectionsOf_cons`, `Generate.document_eq` — a run is made of
  its parts.
-/

namespace ContainerDocs
namespace Generate

/-! ## A run with a configuration -/

variable (o : GenerateOptions) (c : Config) (directory : String)

def opening (path : String) : Run (Config × String) := do
  Run.info ("Using config file: " ++ path)
  let c ← Config.ofFile path
  let directory ← Config.directoryOf path
  return (c, directory)

def optionsFor : ReportOptions := ⟨o.noSymbols, o.badgeUrl.getD c.badgeUrl⟩

def selectionFor (s : Config.Section) : Selection := Selection.resolve o.template (c.templateFor s)

def ownPath? (index : Nat) (s : Config.Section) : Option String :=
  let format := (selectionFor o c s).format
  if OutputPath.isOwnFile format then some (OutputPath.ofSection c.output s.marker index format)
  else none

def ownPaths (index : Nat) : List Config.Section → List String
  | [] => []
  | s :: rest => (ownPath? o c index s).toList ++ ownPaths (index + 1) rest

theorem eq_ofSection_of_mem_ownPaths {o : GenerateOptions} {c : Config} {index : Nat}
    {ss : List Config.Section} {path : String} (h : path ∈ ownPaths o c index ss) :
    ∃ s ∈ ss, ∃ i format, path = OutputPath.ofSection c.output s.marker i format := by
  induction ss generalizing index with
  | nil => cases h
  | cons s rest ih =>
    obtain hown | hrest := List.mem_append.1 h
    · rw [ownPath?] at hown
      split_ifs at hown
      · rw [List.mem_singleton.1 hown]
        exact ⟨s, List.mem_cons_self, index, _, rfl⟩
      · cases hown
    · obtain ⟨s', hs', hpath⟩ := ih hrest
      exact ⟨s', List.mem_cons_of_mem s hs', hpath⟩

def reportOf (index : Nat) (s : Config.Section) : Run (Option Text) := do
  noteTemplate o (selectionFor o c s) s.type
  sectionReport o c directory index s (selectionFor o c s) (optionsFor o c)

/-- Puts the report of a section into the document so far. -/
def share (s : Config.Section) (content : Option Text) (report : Text) : Run (Option Text) :=
  some <$> (do intoSection s.marker (← contentOf c.output content) report)

/-- Writes the report of a section as a file of its own or puts it into the document so far. -/
def deliver (index : Nat) (s : Config.Section) (content : Option Text) (report : Text) :
    Run (Option Text) :=
  match ownPath? o c index s with
  | some path => do
    ownFile o path report
    return content
  | none => share c s content report

def sectionStep (index : Nat) (content : Option Text) (s : Config.Section) : Run (Option Text) := do
  match ← reportOf o c directory index s with
  | none => return content
  | some report => deliver o c index s content report

/-- Prints or writes the document that sections have been put into. -/
def finish : Option Text → Run Unit
  | none => return
  | some content => if o.dryRun then Run.printLine content else updateDocument c.output content

def sectionsOf (index : Nat) (content : Option Text) (ss : List Config.Section) :
    Run (Option Text) :=
  sections o c directory (optionsFor o c) index content ss

@[simp] theorem sectionsOf_nil (index : Nat) (content : Option Text) :
    sectionsOf o c directory index content [] = pure content := rfl

theorem sectionsOf_cons (index : Nat) (content : Option Text) (s : Config.Section)
    (rest : List Config.Section) :
    sectionsOf o c directory index content (s :: rest) =
      sectionStep o c directory index content s >>= fun content =>
        sectionsOf o c directory (index + 1) content rest := by
  rw [sectionsOf, sections, sectionStep, reportOf]
  simp only [bind_assoc]
  refine bind_congr fun _ => bind_congr fun report => ?_
  cases report with
  | none => simp [sectionsOf]
  | some report =>
    dsimp only
    rw [deliver, ownPath?]
    by_cases hown : OutputPath.isOwnFile (selectionFor o c s).format = true
    · rw [if_pos hown]
      simp only [selectionFor] at hown
      rw [if_pos hown]
      simp [sectionsOf, selectionFor]
    · rw [if_neg hown]
      simp only [selectionFor] at hown
      rw [if_neg hown]
      simp [sectionsOf, share]

theorem sectionsOf_append (index : Nat) (content : Option Text) (ss ss' : List Config.Section) :
    sectionsOf o c directory index content (ss ++ ss') =
      sectionsOf o c directory index content ss >>= fun content =>
        sectionsOf o c directory (index + ss.length) content ss' := by
  induction ss generalizing index content with
  | nil => simp
  | cons s rest ih =>
    rw [List.cons_append, sectionsOf_cons, sectionsOf_cons, bind_assoc, List.length_cons,
      Nat.add_comm rest.length, ← Nat.add_assoc]
    exact bind_congr fun content => ih (index + 1) content

theorem fromConfig_eq (path : String) :
    fromConfig o path = opening path >>= fun (c, directory) =>
      Run.catching (sectionsOf o c directory 0 none c.sections) >>= finish o c := by
  rw [fromConfig, opening]
  simp only [bind_assoc, pure_bind]
  refine bind_congr fun _ => bind_congr fun c => bind_congr fun directory =>
    bind_congr fun content => ?_
  cases content <;> rfl

/-! ## A run for one Dockerfile -/

def documentReport : Run Text := do
  let d ← Steps.documentation o.dockerfile
  let stats ← if o.image.isEmpty then pure none else Run.catching (analyze o {} o.image)
  let selection := Selection.resolve o.template none
  noteTemplate o selection Config.imageType
  Steps.imageReport d stats ⟨o.noSymbols, o.badgeUrl.getD ""⟩ selection

def deliverDocument (report : Text) : Run Unit :=
  let format := (Selection.resolve o.template none).format
  if o.dryRun then Run.printLine report
  else if OutputPath.isOwnFile format then writeReport (OutputPath.ofReport o.output format) report
  else intoDocument o.output report

theorem document_eq : document o = documentReport o >>= deliverDocument o := by
  rw [document, documentReport, bind_assoc]
  refine bind_congr fun d => ?_
  by_cases himage : o.image.isEmpty = true
  · simp only [if_pos himage, bind_assoc]
    rfl
  · simp only [if_neg himage, bind_assoc]
    rfl

end Generate
end ContainerDocs

import ContainerDocs.Proofs.System.Started
import ContainerDocs.Proofs.Tool.Frame

/-!
# The commands of tools

Every command that a tool starts for an image has the image as one whole argument, and all its other
words are fixed. The layer tool may ask for the socket of the virtual machine before.

## Main definitions

* `ImageUse` — what a command does with an image; `ImageUse.command` is the command.
* `Tool.IsAt` — a program is what was found for a tool.
* `IsCommandFor` — the commands that are started for an image.

## Main statements

* `ImageUse.eq_of_command_eq` — a command has one image only.
* `Adapter.startsWith_locate` — the search for a tool starts nothing.
* `Adapter.starts_run` — a tool starts commands for its image only.
-/

namespace ContainerDocs

open Run

inductive ImageUse where
  | presence
  | pull
  | inspect
  | manifest
  | packages
  | vulnerabilities
  /-- The layers are written to a report. -/
  | layers (n : Nat)

namespace ImageUse

def tool : ImageUse → Tool
  | .presence | .pull | .inspect => .runtime
  | .manifest => .manifest
  | .packages => .syft
  | .vulnerabilities => .grype
  | .layers _ => .dive

def front (program : String) : ImageUse → List String
  | .presence => [program, "inspect", "--type=image"]
  | .pull => [program, "pull"]
  | .inspect => [program, "inspect"]
  | .manifest => [program, "manifest", "inspect"]
  | .packages | .vulnerabilities | .layers _ => [program]

def back : ImageUse → List String
  | .packages | .vulnerabilities => ["-o", "json"]
  | .layers n => ["--json", Adapter.reportPath n]
  | .presence | .pull | .inspect | .manifest => []

def command (u : ImageUse) (program image : String) : List String :=
  u.front program ++ image :: u.back

/-- The words of a command tell which of them is the image. -/
theorem eq_of_command_eq {u u' : ImageUse} {program program' image image' : String}
    (h : u.command program image = u'.command program' image') : image = image' := by
  cases u <;> cases u' <;> simp [command, front, back] at h <;> simp [h]

theorem command_ne_socketCommand (u : ImageUse) (program image : String) :
    u.command program image ≠ Adapter.socketCommand := by
  cases u <;> simp [command, front, back, Adapter.socketCommand]

end ImageUse

def Tools.Finds (w : World) (name path : String) : Prop :=
  ∃ m source, (exec (lookup? name) w m).1 = .ok (some (path, source))

/-- A program is what was found for a tool: one of the container runtimes, or the program of its
name. -/
def Tool.IsAt (w : World) (t : Tool) (program : String) : Prop :=
  if t.usesRuntime then program ∈ Tools.runtimes ∧ (w.find? program).isSome = true
  else Tools.Finds w t.program program

def IsCommandFor (w : World) (image : String) (argv : List String) : Prop :=
  argv = Adapter.socketCommand ∨
    ∃ (u : ImageUse) (program : String), u.tool.IsAt w program ∧ argv = u.command program image

theorem isCommandFor_command {w : World} {program : String} (u : ImageUse)
    (h : u.tool.IsAt w program) (image : String) : IsCommandFor w image (u.command program image) :=
  .inr ⟨u, program, h, rfl⟩

variable {allowed : List String → Prop} {w : World} {image : String}

/-! ## Finding tools -/

namespace Tools

theorem starts_directory : Starts allowed w directory := by
  refine (starts_setting? _).bind fun d => ?_
  split
  · exact starts_pure _
  · exact (starts_setting? _).bind fun _ => starts_pure _

theorem starts_lookup? (name : String) : Starts allowed w (lookup? name) := by
  refine starts_read.bind fun w' => ?_
  split
  · exact starts_pure _
  · refine starts_directory.bind fun d => starts_get.bind fun m => starts_place.bind fun here => ?_
    exact .ite (starts_pure _) (starts_pure _)

theorem startsWith_lookup? (name : String) :
    StartsWith allowed w (fun found => ∀ path source, found = some (path, source) →
      Finds w name path) (lookup? name) :=
  fun m => ⟨(starts_lookup? name m).1, fun _ hfound _ source h => ⟨m, source, h ▸ hfound⟩⟩

theorem startsWith_runtime? :
    StartsWith allowed w (fun found => ∀ program, found = some program →
      Tool.runtime.IsAt w program) runtime? := by
  refine startsWith_read.bind fun w' hw => startsWith_pure fun program hprogram => ?_
  subst hw
  have hthere := List.find?_some hprogram
  exact ⟨List.mem_of_find?_eq_some hprogram, hthere⟩

theorem starts_status : Starts allowed w status := by
  have hrest : ∀ names : List String, Starts allowed w
      (names.mapM fun name => do return Status.mk name (← lookup? name)) := by
    intro names
    induction names with
    | nil => exact starts_pure _
    | cons name names ih =>
      rw [List.mapM_cons]
      refine ((starts_lookup? name).bind fun _ => starts_pure _).bind fun first => ?_
      exact ih.bind fun rest => starts_pure _
  exact startsWith_runtime?.starts.bind fun _ => (hrest _).bind fun _ => starts_pure _

end Tools

/-! ## Running tools -/

namespace Adapter

/-- The search for a tool starts nothing, and it gives what was found for the tool. -/
theorem startsWith_locate (t : Tool) (timeouts : Timeouts) :
    StartsWith allowed w (fun r => r.1 = true → r.2.tool = t ∧
      ∀ program, r.2.binary = some program → t.IsAt w program) (new t timeouts).locate := by
  have htool : (new t timeouts).tool = t := rfl
  rw [locate, htool]
  by_cases hruntime : t.usesRuntime = true
  · rw [if_pos hruntime]
    refine Tools.startsWith_runtime?.bind fun found hfound => startsWith_pure fun _ => ⟨rfl, ?_⟩
    intro program hprogram
    rw [Tool.IsAt, if_pos hruntime]
    exact hfound program hprogram
  · rw [if_neg hruntime]
    refine (Tools.startsWith_lookup? t.program).bind fun found hfound => ?_
    split
    next path source =>
      refine startsWith_pure fun _ => ⟨rfl, fun program hprogram => ?_⟩
      cases hprogram
      rw [Tool.IsAt, if_neg hruntime]
      exact hfound path source rfl
    next => exact startsWith_pure fun h => nomatch h

theorem startsWith_program (a : Adapter) :
    StartsWith allowed w (fun program => a.binary = some program) a.program := by
  rw [program]
  split
  next b hb => exact startsWith_pure (Option.eq_some_of_filter_eq_some hb)
  next => exact fun m => ⟨.refl m, fun _ h => by cases h⟩

theorem starts_report {α : Type} (r : Except ReportError α) : Starts allowed w (report r) :=
  starts_ofExcept _

theorem starts_machineSocket : Starts (IsCommandFor w image) w machineSocket := by
  have hinspect : Starts (IsCommandFor w image) w
      (Run.command socketCommand machineTimeout false none false) :=
    starts_command (.inl rfl) _ _ _ _
  refine Starts.bind (Starts.tryCatch (hinspect.map _) fun e => ?_) fun output => ?_
  · split
    · exact starts_pure _
    · exact starts_throw _
  · split
    · exact starts_pure _
    · refine starts_read.bind fun w' => ?_
      split
      · exact starts_throw _
      · exact starts_pure _
      · exact starts_ofExcept _

theorem starts_socketEnvironment : Starts (IsCommandFor w image) w socketEnvironment := by
  refine starts_read.bind fun w' => (starts_setting? _).bind fun host => .ite (starts_pure _) ?_
  refine (starts_machineSocket.map _).bind fun socket => .ite (starts_pure _) ?_
  exact starts_read.bind fun _ => starts_pure _

theorem startsWith_newReport :
    StartsWith allowed w (fun path => ∃ n, path = reportPath n) newReport := by
  intro m
  obtain ⟨n, k, hexec, -⟩ | ⟨c, k, hexec, -⟩ := exec_newReport w m
  · rw [hexec]
    exact ⟨.of_eq rfl, fun _ hpath => ⟨n, (Except.ok.inj hpath).symm⟩⟩
  · rw [hexec]
    exact ⟨.of_eq rfl, by rintro _ ⟨⟩⟩

theorem starts_removeReport (path : String) : Starts allowed w (removeReport path) := by
  refine starts_get.bind fun m => ?_
  split
  · exact starts_modify fun _ => rfl
  · exact starts_note _ _

theorem starts_layerReport {a : Adapter} {program : String} (h : Tool.dive.IsAt w program)
    (watching : Bool) : Starts (IsCommandFor w image) w (a.layerReport program image watching) := by
  refine startsWith_newReport.bind_starts fun path hpath => ?_
  obtain ⟨n, rfl⟩ := hpath
  refine Starts.bind (Starts.attempt ?_) fun outcome => ?_
  · refine starts_socketEnvironment.bind fun environment => ?_
    refine (starts_command (isCommandFor_command (.layers n) h image) _ _ _ _).bind fun _ => ?_
    refine starts_get.bind fun m => ?_
    split
    · exact starts_pure _
    · exact starts_fail _
  · exact (starts_removeReport _).bind fun _ => starts_ofExcept _

/-- A tool that has been found starts commands for its image only. -/
theorem starts_run {a : Adapter} (h : ∀ program, a.binary = some program → a.tool.IsAt w program)
    (image : String) (watching : Bool) :
    Starts (IsCommandFor w image) w (a.run image watching) := by
  refine (startsWith_program a).bind_starts fun program hprogram => ?_
  have hat := h program hprogram
  have hcommand : ∀ u : ImageUse, u.tool = a.tool →
      IsCommandFor w image (u.command program image) :=
    fun u hu => isCommandFor_command u (hu ▸ hat) image
  split
  next htool =>
    refine (starts_command (hcommand .inspect htool.symm) _ _ _ _).bind fun output => ?_
    exact starts_read.bind fun _ => (starts_report _).bind fun _ => starts_pure _
  next htool =>
    refine starts_read.bind fun w' => ?_
    refine (starts_command (hcommand .manifest htool.symm) _ _ _ _).bind fun output => ?_
    exact starts_read.bind fun _ => (starts_report _).bind fun _ => starts_pure _
  next htool =>
    refine (starts_command (hcommand .packages htool.symm) _ _ _ _).bind fun output => ?_
    exact starts_read.bind fun _ => (starts_report _).bind fun _ => starts_pure _
  next htool =>
    -- Only the vulnerability report may leave a note.
    refine (starts_command (hcommand .vulnerabilities htool.symm) _ _ _ _).bind fun output => ?_
    refine starts_read.bind fun _ => (starts_report _).bind fun found => ?_
    extract_lets noted
    have hnoted : ∀ u, Starts (IsCommandFor w image) w (noted u) :=
      fun _ => starts_read.bind fun _ => starts_get.bind fun _ => starts_pure _
    split
    · exact (starts_note _ _).bind hnoted
    · exact hnoted ()
  next htool =>
    rw [htool] at hat
    exact (starts_layerReport hat watching).bind fun content =>
      starts_read.bind fun _ => (starts_report _).bind fun _ => starts_pure _

end Adapter
end ContainerDocs

import ContainerDocs.Analysis.Pull
import ContainerDocs.Proofs.Tool.Commands

/-!
# The commands of an analysis

An image is validated before it is pulled and again before it is analyzed. So an image that is not
accepted starts nothing.

## Main definitions

* `IsAllowed` — the commands for those of some images that are accepted.
* `Analysis.SearchStarts` — the search for a tool starts nothing and finds a worker that starts
  commands for its image only.

## Main statements

* `Analysis.starts_requireValid_bind` — what comes after the validation of an image.
* `Analysis.starts_analyze`, `Analysis.starts_compare` — what an analysis starts.
* `Pull.starts_ensureAll` — what the pulling of images starts.
-/

namespace ContainerDocs

open Run

def IsAllowed (w : World) (images : List String) (argv : List String) : Prop :=
  ∃ image ∈ images, (Analysis.validate image).isOk = true ∧ IsCommandFor w image argv

variable {allowed : List String → Prop} {w : World} {images : List String} {image : String}

namespace Analysis

/-- What comes after the validation of an image can rely on the image being accepted. -/
theorem starts_requireValid_bind {α : Type} {next : Unit → Run α}
    (h : (validate image).isOk = true → Starts allowed w (next ())) :
    Starts allowed w (requireValid image >>= next) := by
  rw [requireValid]
  cases hvalid : validate image with
  | error f =>
    refine .of_exec fun m => ?_
    rw [exec_bind, exec_fail]
    exact .refl m
  | ok r =>
    rw [pure_bind]
    exact h (by rw [hvalid]; rfl)

def WorkerStarts (w : World) (v : Worker) : Prop :=
  ∀ image, Starts (IsCommandFor w image) w (v.run image)

def SearchStarts (w : World) (probe : Run Probe) : Prop :=
  ∀ allowed, StartsWith allowed w (fun found => ∀ v, found = .available v → WorkerStarts w v) probe

theorem startsWith_available {probes : List (Run Probe)}
    (h : ∀ probe ∈ probes, SearchStarts w probe) :
    StartsWith allowed w (fun workers => ∀ v ∈ workers, WorkerStarts w v) (available probes) := by
  induction probes with
  | nil => exact startsWith_pure fun _ hv => nomatch hv
  | cons probe rest ih =>
    obtain ⟨hprobe, hrest⟩ := List.forall_mem_cons.1 h
    refine (hprobe allowed).bind fun found hfound => ?_
    split
    next v =>
      refine (ih hrest).bind fun workers hworkers => startsWith_pure ?_
      exact List.forall_mem_cons.2 ⟨hfound v rfl, hworkers⟩
    next => exact (starts_note _ _).bind_with fun _ => ih hrest

theorem starts_runAll (image : String) {workers : List Worker}
    (h : ∀ v ∈ workers, WorkerStarts w v) :
    Starts (IsCommandFor w image) w (runAll image workers) := by
  induction workers with
  | nil => exact starts_pure _
  | cons v workers ih =>
    obtain ⟨hv, hrest⟩ := List.forall_mem_cons.1 h
    rw [runAll]
    exact (hv image).attempt.bind fun _ => (ih hrest).bind fun _ => starts_pure _

theorem starts_mergeAll (image : String) (s : ImageStats) (os : List Outcome) :
    Starts allowed w (mergeAll image s os) := by
  induction os generalizing s with
  | nil => exact starts_pure _
  | cons o os ih =>
    rw [mergeAll]
    split
    · exact starts_throw _
    · exact (starts_note _ _).bind fun _ => ih _
    · exact (starts_note _ _).bind fun _ => ih _

/-- The analysis of an image starts commands only if the image is accepted, and then for that image
only. -/
theorem starts_analyze {probes : List (Run Probe)} (h : ∀ probe ∈ probes, SearchStarts w probe)
    (himage : image ∈ images) (watching : Bool) (completion : Option (List Nat)) :
    Starts (IsAllowed w images) w (analyze image probes watching completion) := by
  refine starts_requireValid_bind fun hvalid => starts_isCancelled.bind fun _ => ?_
  extract_lets started
  have hstarted : ∀ u, Starts (IsAllowed w images) w (started u) := by
    intro u
    refine (startsWith_available h).bind_starts fun workers hworkers => ?_
    refine .ite ((starts_note _ _).bind fun _ => starts_pure _) ?_
    refine ((starts_runAll image hworkers).mono fun argv hargv => ?_).bind fun outcomes => ?_
    · exact ⟨image, himage, hvalid, hargv⟩
    · exact (starts_mergeAll _ _ _).bind fun _ => starts_pure _
  exact .ite ((starts_fail _).bind hstarted) (hstarted ())

theorem starts_analyzeOne {probes : List (Run Probe)} (h : ∀ probe ∈ probes, SearchStarts w probe)
    (himage : image ∈ images) (watching : Bool) :
    Starts (IsAllowed w images) w (analyzeOne image probes watching) := by
  refine (starts_analyze h himage watching none).attempt.bind fun result => ?_
  split
  · exact starts_pure _
  · exact (starts_note _ _).bind fun _ => starts_pure _
  · exact starts_throw _

theorem starts_compareEach {jobs : List (String × List (Run Probe))} (watching : Bool)
    (h : ∀ i ∈ jobs, i.1 ∈ images ∧ ∀ probe ∈ i.2, SearchStarts w probe) :
    Starts (IsAllowed w images) w (compareEach watching jobs) := by
  induction jobs with
  | nil => exact starts_pure _
  | cons i rest ih =>
    obtain ⟨⟨himage, hprobes⟩, hrest⟩ := List.forall_mem_cons.1 h
    refine (starts_analyzeOne hprobes himage watching).attempt.bind fun outcome => ?_
    exact (ih hrest).bind fun _ => starts_pure _

/-- A comparison starts commands for those of its images that are accepted. -/
theorem starts_compare {jobs : List (String × List (Run Probe))} (watching : Bool)
    (h : ∀ i ∈ jobs, i.1 ∈ images ∧ ∀ probe ∈ i.2, SearchStarts w probe) :
    Starts (IsAllowed w images) w (compare jobs watching) := by
  refine (starts_compareEach watching h).bind fun outcomes => ?_
  induction outcomes with
  | nil => exact starts_pure _
  | cons r rest ih =>
    rw [List.mapM_cons]
    exact (starts_ofExcept r).bind fun _ => ih.bind fun _ => starts_pure _

theorem searchStarts_standard (timeouts : Timeouts) (watching : Bool) :
    ∀ probe ∈ standardProbes timeouts watching, SearchStarts w probe := by
  intro probe hprobe allowed
  obtain ⟨a, ha, rfl⟩ := List.mem_map.1 hprobe
  obtain ⟨t, -, rfl⟩ := List.mem_map.1 ha
  refine (Adapter.startsWith_locate t timeouts).bind fun found hfound => ?_
  split
  next isThere a =>
    split_ifs with hthere
    · refine startsWith_pure ?_
      rintro v ⟨⟩ image
      obtain ⟨htool, hprogram⟩ := hfound hthere
      exact (Adapter.starts_run (htool ▸ hprogram) image watching).map _
    · exact startsWith_pure fun v hv => nomatch hv

end Analysis

namespace Pull

theorem starts_once {runtime : String} (h : Tool.runtime.IsAt w runtime) (image : String)
    (timeout : Binary64) : Starts (IsCommandFor w image) w (once runtime image timeout) := by
  refine (starts_command (isCommandFor_command .pull h image) _ _ _ _).attempt.bind fun result => ?_
  split
  · exact starts_pure _
  · exact .ite (starts_pure _) (starts_fail _)
  · exact starts_throw _

theorem starts_attempts {runtime : String} (h : Tool.runtime.IsAt w runtime) (image : String)
    (timeout : Binary64) (pauses : List Rat) :
    Starts (IsCommandFor w image) w (attempts runtime image timeout pauses) := by
  induction pauses with
  | nil =>
    refine (starts_once h image timeout).bind fun result => ?_
    split
    · exact starts_pure _
    · exact starts_fail _
  | cons seconds rest ih =>
    refine (starts_once h image timeout).bind fun result => ?_
    split
    · exact starts_pure _
    · exact (starts_pause _).bind fun _ => ih

/-- An image is looked for and pulled by a runtime that has been found. -/
theorem starts_ensure (image : String) (timeout : Binary64) :
    Starts (IsCommandFor w image) w (ensure image none timeout) := by
  refine Tools.startsWith_runtime?.bind_starts fun found hfound => ?_
  cases found with
  | none => exact starts_fail _
  | some runtime =>
    have hruntime := hfound runtime rfl
    refine (starts_command (isCommandFor_command .presence hruntime image) _ _ _ _).attempt.bind
      fun inspected => ?_
    split
    · exact starts_note _ _
    · refine (starts_note _ _).bind fun _ => (starts_note _ _).bind fun _ => ?_
      exact starts_attempts hruntime image timeout _
    · exact starts_throw _

theorem starts_prepare (himage : image ∈ images) (timeout : Binary64) :
    Starts (IsAllowed w images) w (prepare image timeout) :=
  Analysis.starts_requireValid_bind fun hvalid =>
    (starts_ensure image timeout).mono fun _ hargv => ⟨image, himage, hvalid, hargv⟩

/-- Pulling starts commands for those of the images that are accepted, whether errors are ignored or
not. -/
theorem starts_ensureAll (timeout : Binary64) (ignoreErrors : Bool) {tags : List String}
    (h : ∀ tag ∈ tags, tag ∈ images) :
    Starts (IsAllowed w images) w (ensureAll timeout ignoreErrors tags) := by
  induction tags with
  | nil => exact starts_pure _
  | cons tag rest ih =>
    obtain ⟨htag, hrest⟩ := List.forall_mem_cons.1 h
    rw [ensureAll]
    refine (starts_prepare htag timeout).attempt.bind fun result => ?_
    split
    · exact (ih hrest).bind fun _ => starts_pure _
    · exact .ite ((starts_note _ _).bind fun _ => ih hrest) (starts_fail _)
    · exact starts_throw _

end Pull
end ContainerDocs

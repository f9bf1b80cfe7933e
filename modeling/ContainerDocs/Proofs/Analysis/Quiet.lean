import ContainerDocs.Analysis.Pull
import ContainerDocs.Proofs.Analysis.Agreement
import ContainerDocs.Proofs.Tool.Quiet

/-!
# Analyses that nothing disturbs

In a quiet world, an analysis of an accepted image has a result, whatever the tools print or write:
a tool that fails leaves a warning, and one that does not has its findings merged.

## Main definitions

* `World.HasImage` — an image is there.
* `World.Inspects` — the runtime reports about an image.

## Main statements

* `Analysis.exists_analyze` — the result of an analysis.
* `Analysis.gather_there` — one outcome for each tool that is there.
* `Analysis.exists_outcome_of_inspects` — what the runtime reports is among the outcomes.
* `Pull.undisturbed_ensureAll` — an image that is there is not pulled.
-/

namespace ContainerDocs

open Run

variable {w : World} {stops : Stop → Prop} {image : String} {r : ImageReference}

/-- The preferred runtime has an image, and says so within its time. -/
def World.HasImage (w : World) (image : String) (timeout : Binary64) : Prop :=
  ∃ runtime, Tools.runtimes.find? (fun name => (w.find? name).isSome) = some runtime ∧
    ∀ before, ∃ b, w.respond before [runtime, "inspect", "--type=image", image] = .runs b ∧
      b.status = 0 ∧ b.InTime timeout

/-- The preferred runtime prints a report about an image within its time, and the statistics in the
report have a property. -/
def World.Inspects (w : World) (image : String) (timeout : Binary64) (P : ImageStats → Prop) :
    Prop :=
  ∃ runtime, Tools.runtimes.find? (fun name => (w.find? name).isSome) = some runtime ∧
    ∀ before, ∃ b r, w.respond before [runtime, "inspect", image] = .runs b ∧ b.status = 0 ∧
      b.InTime timeout ∧
      InspectReport.read (w.nesting [runtime, "inspect", image]) b.output image runtime = .ok r ∧
      P (r.stats image)

namespace Analysis

theorem undisturbed_requireValid (himage : validate image = .ok r) :
    Undisturbed w stops (fun _ => True) (requireValid image) := by
  rw [requireValid, himage]
  exact undisturbed_pure trivial

theorem undisturbed_mergeAll {stats : ImageStats} {os : List Outcome}
    (hos : ∀ o ∈ os, o.result ≠ .error .interrupted) :
    Undisturbed w stops (fun _ => True) (mergeAll image stats os) := by
  induction os generalizing stats with
  | nil => exact undisturbed_pure trivial
  | cons o os ih =>
    obtain ⟨ho, hrest⟩ := List.forall_mem_cons.1 hos
    rw [mergeAll]
    split
    next h => exact absurd h ho
    next => exact (undisturbed_note _ _).bind fun _ _ => ih hrest
    next => exact (undisturbed_note _ _).bind fun _ _ => ih hrest

/-- A tool that was found gives statistics or fails, whatever the image. -/
def RunsUndisturbed (w : World) (v : Worker) : Prop :=
  ∀ image, Undisturbed w (· ≠ .interrupted) (fun _ => True) (v.run image)

/-- A search finds a tool or not, and the tool gives statistics or fails. -/
def SearchUndisturbed (w : World) (probe : Run Probe) : Prop :=
  Undisturbed w (fun _ => False) (fun found => ∀ v, found = .available v → RunsUndisturbed w v)
    probe

theorem undisturbed_available {probes : List (Run Probe)}
    (h : ∀ probe ∈ probes, SearchUndisturbed w probe) :
    Undisturbed w (fun _ => False) (fun workers => ∀ v ∈ workers, RunsUndisturbed w v)
      (available probes) := by
  induction probes with
  | nil => exact undisturbed_pure (by simp)
  | cons probe rest ih =>
    obtain ⟨hprobe, hrest⟩ := List.forall_mem_cons.1 h
    refine hprobe.bind fun found hfound => ?_
    split
    next v =>
      refine (ih hrest).bind fun workers hworkers => undisturbed_pure ?_
      exact List.forall_mem_cons.2 ⟨hfound v rfl, hworkers⟩
    next => exact (undisturbed_note _ _).bind fun _ _ => ih hrest

theorem undisturbed_runAll (image : String) {workers : List Worker}
    (h : ∀ v ∈ workers, RunsUndisturbed w v) :
    Undisturbed w (fun _ => False) (fun os => ∀ o ∈ os, o.result ≠ .error .interrupted)
      (runAll image workers) := by
  induction workers with
  | nil => exact undisturbed_pure (by simp)
  | cons v workers ih =>
    obtain ⟨hv, hrest⟩ := List.forall_mem_cons.1 h
    rw [runAll]
    refine (hv image).attempt.bind fun result hresult => ?_
    refine (ih hrest).bind fun os hos => undisturbed_pure ?_
    exact List.forall_mem_cons.2 ⟨fun hi => hresult.2 _ hi rfl, hos⟩

/-- In a quiet world an analysis of an accepted image has a result. -/
theorem undisturbed_analyze (hw : w.IsQuiet) (himage : validate image = .ok r)
    {probes : List (Run Probe)} (h : ∀ probe ∈ probes, SearchUndisturbed w probe)
    (watching : Bool) (completion : Option (List Nat)) :
    Undisturbed w (fun _ => False) (fun _ => True) (analyze image probes watching completion) := by
  refine (undisturbed_requireValid himage).bind fun _ _ => ?_
  refine (undisturbed_isCancelled hw).bind fun cancelled hcancelled => ?_
  subst hcancelled
  rw [Bool.and_false, if_neg Bool.false_ne_true]
  refine (undisturbed_available h).bind fun workers hworkers => ?_
  refine .ite ((undisturbed_note _ _).bind fun _ _ => undisturbed_pure trivial) ?_
  refine (undisturbed_runAll image hworkers).bind fun os hos => ?_
  exact (undisturbed_mergeAll fun o ho => hos o (mem_of_arrange ho)).bind fun _ _ =>
    undisturbed_pure trivial

theorem searchUndisturbed_standard (hw : w.IsQuiet) (timeouts : Timeouts) (watching : Bool) :
    ∀ probe ∈ standardProbes timeouts watching, SearchUndisturbed w probe := by
  intro probe hprobe
  obtain ⟨a, -, rfl⟩ := List.mem_map.1 hprobe
  refine (Adapter.undisturbed_locate a).bind fun found _ => ?_
  refine .ite (undisturbed_pure ?_) (undisturbed_pure ?_)
  · rintro v ⟨⟩ image
    exact (Adapter.undisturbed_run hw found.2 image watching).map _
  · rintro v ⟨⟩

/-- In a quiet world an analysis with the standard tools gives what they report, folded together. -/
theorem exists_analyze (hw : w.IsQuiet) (himage : validate image = .ok r) (timeouts : Timeouts)
    {m : Machine} (hm : m.cancelled = false) :
    ∃ os m₁ m', exec (gather image (standardProbes timeouts true) true) w m = (.ok os, m₁) ∧
      exec (analyze image (standardProbes timeouts true) true none) w m =
        (.ok (os.foldl Outcome.into { imageTag := image }).finalize, m') ∧
      m'.cancelled = false := by
  obtain ⟨s, m', hexec, hcancelled, -⟩ := (undisturbed_analyze hw himage
    (searchUndisturbed_standard hw timeouts true) true none).exists_exec hm
  obtain ⟨os, m₁, hgather, rfl⟩ := analyze_eq_ok (congrArg Prod.fst hexec)
  exact ⟨os, m₁, m', hgather, hexec, hcancelled⟩

/-! ## Which tools report -/

/-- The tools that are there are found, one after another. -/
theorem available_there {tools : List Tool} {timeouts : Timeouts} {watching : Bool}
    {workers : List Worker} {m m' : Machine}
    (h : (available (tools.map fun tool => (Adapter.new tool timeouts).probe watching)).exec w m =
      (.ok workers, m')) :
    List.Forall₂ (fun worker tool => ∃ m₁ m₂,
        ((Adapter.new tool timeouts).probe watching).exec w m₁ = (.ok (.available worker), m₂))
      workers (tools.filter fun tool => (Adapter.new tool timeouts).isThere w m.files) := by
  induction tools generalizing m workers with
  | nil =>
    cases h
    exact .nil
  | cons tool tools ih =>
    obtain ⟨a', hlocate⟩ := Adapter.exec_locate (Adapter.new tool timeouts) w m
    obtain ⟨found, m₁, hprobe, h⟩ := exec_bind_eq_ok.1 h
    obtain ⟨_, _, hfound, hp⟩ := exec_bind_eq_ok.1 hprobe
    cases hlocate.symm.trans hfound
    cases hthere : (Adapter.new tool timeouts).isThere w m.files with
    | true =>
      rw [hthere] at hp
      cases hp
      obtain ⟨others, m₂, hothers, h⟩ := exec_bind_eq_ok.1 h
      cases h
      rw [List.filter_cons, if_pos hthere]
      exact .cons ⟨m, m, hprobe⟩ (ih hothers)
    | false =>
      rw [hthere] at hp
      cases hp
      obtain ⟨_, m₂, hnote, h⟩ := exec_bind_eq_ok.1 h
      cases hnote
      rw [List.filter_cons, if_neg (Bool.eq_false_iff.1 hthere)]
      have hrest := ih h
      exact hrest

/-- An analysis with the standard tools gathers one outcome of each tool that is there. -/
theorem gather_there (hw : w.IsQuiet) (himage : validate image = .ok r) {timeouts : Timeouts}
    {m m' : Machine} {os : List Outcome} (hm : m.cancelled = false)
    (h : exec (gather image (standardProbes timeouts true) true) w m = (.ok os, m')) :
    List.Forall₂ (fun o tool => Reports image w ((Adapter.new tool timeouts).probe true) o) os
      (tools.filter fun tool => (Adapter.new tool timeouts).isThere w m.files) := by
  rw [exec_gather himage fun _ => exec_isCancelled_of_isQuiet hw hm, standardProbes_eq] at h
  obtain ⟨workers, m₁, hfound, h⟩ := exec_bind_eq_ok.1 h
  split at h
  next hnone =>
    obtain ⟨_, m₂, -, h⟩ := exec_bind_eq_ok.1 h
    cases h
    have hworkers := available_there hfound
    rw [List.isEmpty_iff.1 hnone, List.forall₂_nil_left_iff] at hworkers
    rw [hworkers]
    exact .nil
  next => exact reports_of_results (available_there hfound) (runAll_results h)

/-- What the runtime reports is among what is gathered. -/
theorem exists_outcome_of_inspects (hw : w.IsQuiet) (himage : validate image = .ok r)
    {timeouts : Timeouts} {P : ImageStats → Prop} (h : w.Inspects image timeouts.inspect P)
    {m m' : Machine} {os : List Outcome} (hm : m.cancelled = false)
    (hgather : exec (gather image (standardProbes timeouts true) true) w m = (.ok os, m')) :
    ∃ o ∈ os, ∃ s, o.result = .ok (some s) ∧ P s := by
  obtain ⟨runtime, hruntime, hinspects⟩ := h
  let a : Adapter := { Adapter.new .runtime timeouts with binary := some runtime }
  have hbinary : a.found? = some runtime := by
    have hname : runtime = "docker" ∨ runtime = "podman" := by
      simpa [Tools.runtimes] using List.mem_of_find?_eq_some hruntime
    rcases hname with rfl | rfl <;> rfl
  have hlocate : exec (Adapter.new .runtime timeouts).locate w m = (.ok (true, a), m) := by
    have hfind : exec Tools.runtime? w m = (.ok (some runtime), m) := by
      rw [← hruntime]
      rfl
    have hruns : (Adapter.new .runtime timeouts).tool.usesRuntime = true := rfl
    rw [Adapter.locate, if_pos hruns, exec_bind, hfind]
    rfl
  rw [exec_gather himage fun _ => exec_isCancelled_of_isQuiet hw hm, standardProbes_eq] at hgather
  obtain ⟨workers, m₁, havailable, hgather⟩ := exec_bind_eq_ok.1 hgather
  have hm₁ : m₁.cancelled = false := by
    have hfound := undisturbed_available (searchUndisturbed_standard hw timeouts true) m hm
    rw [standardProbes_eq, havailable] at hfound
    exact hfound.1
  -- The runtime is found first, so it is the first to be run.
  obtain ⟨found, m₂, hprobe, havailable⟩ := exec_bind_eq_ok.1 havailable
  obtain ⟨_, _, hfound, hprobe⟩ := exec_bind_eq_ok.1 hprobe
  cases hlocate.symm.trans hfound
  cases hprobe
  obtain ⟨others, _, -, havailable⟩ := exec_bind_eq_ok.1 havailable
  cases havailable
  obtain ⟨result, _, hattempt, hgather⟩ := exec_bind_eq_ok.1 hgather
  obtain ⟨results, _, -, hgather⟩ := exec_bind_eq_ok.1 hgather
  cases hgather
  obtain ⟨b, report, hb, hstatus, hinTime, hread, hreport⟩ :=
    hinspects (m₁.started.map (·.command))
  have hrun := Adapter.exec_run_of_inspection hw true rfl hbinary hm₁ hb hstatus hinTime hread
  refine ⟨_, List.mem_cons_self, report.stats image, ?_, hreport⟩
  rw [exec_attempt, exec_map] at hattempt
  rcases hexec : exec (a.run image true) w m₁ with ⟨e | s, m₂⟩ <;> rw [hexec] at hrun hattempt <;>
    cases hrun
  exact (Except.ok.inj (congrArg Prod.fst hattempt)).symm

end Analysis

namespace Pull

variable {timeout : Binary64}

/-- An image that is there is not pulled. -/
theorem undisturbed_ensure (hw : w.IsQuiet) (h : w.HasImage image timeout) :
    Undisturbed w stops (fun _ => True) (ensure image none timeout) := by
  obtain ⟨runtime, hruntime, hrespond⟩ := h
  intro m hm
  have hfind : exec Tools.runtime? w m = (.ok (some runtime), m) := by
    rw [← hruntime]
    rfl
  obtain ⟨b, hb, hstatus, hinTime⟩ := hrespond (m.started.map (·.command))
  obtain ⟨m', hexec, hcancelled⟩ :=
    exists_exec_command_of_inTime hw hm false none false hb hstatus hinTime
  let note : Level × String := (.debug, "Image " ++ image ++ " found locally")
  have hensure : exec (ensure image none timeout) w m =
      (.ok (), { m' with notes := note :: m'.notes }) := by
    rw [ensure]
    dsimp only [Option.filter]
    rw [exec_bind, hfind]
    dsimp only
    rw [exec_bind, exec_attempt, hexec]
    rfl
  rw [hensure]
  exact ⟨hcancelled, fun _ _ => trivial, by rintro _ ⟨⟩⟩

/-- An accepted image that is there is not left out. -/
theorem undisturbed_ensureAll (hw : w.IsQuiet) (himage : Analysis.validate image = .ok r)
    (h : w.HasImage image timeout) (ignoreErrors : Bool) :
    Undisturbed w stops (· = [image]) (ensureAll timeout ignoreErrors [image]) := by
  have hprepare : Undisturbed w (fun _ => False) (fun _ => True) (prepare image timeout) :=
    (Analysis.undisturbed_requireValid himage).bind fun _ _ => undisturbed_ensure hw h
  refine hprepare.attempt.bind fun result hresult => ?_
  split
  · exact (undisturbed_pure (a := []) rfl).bind fun _ hnil => undisturbed_pure (by rw [hnil])
  · exact (hresult.2 _ rfl).elim
  · exact (hresult.2 _ rfl).elim

end Pull
end ContainerDocs

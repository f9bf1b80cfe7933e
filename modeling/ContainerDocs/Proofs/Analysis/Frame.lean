import ContainerDocs.Analysis.Pull
import ContainerDocs.Proofs.Image.Grammar
import ContainerDocs.Proofs.Tool.Frame

/-!
# What an analysis ignores

An analysis searches for tools and runs them, and images are pulled by commands. So both keep what
commands and the reports of the layer tool leave alone, and neither looks at other files.

## Main definitions

* `Analysis.SearchIgnores` — the search for a tool and the worker that it finds ignore places.

## Main statements

* `Analysis.ignores_analyze`, `Analysis.ignores_compare` — what an analysis ignores.
* `Analysis.searchIgnores_standard` — what the search for the standard tools ignores.
* `Pull.ignores_ensureAll` — what the pulling of images ignores.
-/

namespace ContainerDocs

open Run

variable {kept free : Place → Prop} {w : World}

/-! ## Analyzing an image -/

namespace Analysis

theorem ne_reportPath_of_validate {r : ImageReference} (h : validate image = .ok r) (n : Nat) :
    image ≠ Adapter.reportPath n := by
  rw [validate] at h
  split_ifs at h
  cases hparse : ImageReference.parse image with
  | error e =>
    rw [hparse] at h
    cases h
  | ok r' =>
    obtain ⟨-, f, hf⟩ := ImageReference.exists_text_of_parse hparse
    exact Adapter.ne_reportPath (hf ▸ f.head?_text_ne) n

/-- An image that is accepted is no path of a report. -/
theorem ignoresWith_requireValid (image : String) :
    IgnoresWith kept free w (fun _ => ∀ n, image ≠ Adapter.reportPath n) (requireValid image) := by
  rw [requireValid]
  cases himage : validate image with
  | ok r => exact ignoresWith_pure (ne_reportPath_of_validate himage)
  | error f => exact fun m _ hm => ⟨rfl, hm, .refl kept m, by rintro _ ⟨⟩⟩

theorem ignores_mergeAll (image : String) (s : ImageStats) (os : List Outcome) :
    Ignores kept free w (mergeAll image s os) := by
  induction os generalizing s with
  | nil => exact ignores_pure _
  | cons o os ih =>
    rw [mergeAll]
    split
    · exact ignores_throw _
    · exact (ignores_note _ _).bind fun _ => ih _
    · exact (ignores_note _ _).bind fun _ => ih _

def IgnoresEach (kept free : Place → Prop) (w : World) (v : Worker) : Prop :=
  ∀ image, (∀ n, image ≠ Adapter.reportPath n) → Ignores kept free w (v.run image)

/-- A search for a tool ignores places, and so does the worker that it finds. -/
def SearchIgnores (kept free : Place → Prop) (w : World) (probe : Run Probe) : Prop :=
  IgnoresWith kept free w (fun found => ∀ v, found = .available v → IgnoresEach kept free w v) probe

theorem ignoresWith_available {probes : List (Run Probe)}
    (h : ∀ probe ∈ probes, SearchIgnores kept free w probe) :
    IgnoresWith kept free w (fun workers => ∀ v ∈ workers, IgnoresEach kept free w v)
      (available probes) := by
  induction probes with
  | nil => exact ignoresWith_pure fun _ hv => nomatch hv
  | cons probe rest ih =>
    obtain ⟨hprobe, hrest⟩ := List.forall_mem_cons.1 h
    refine IgnoresWith.bind hprobe fun found hfound => ?_
    split
    next v =>
      refine (ih hrest).bind fun workers hworkers => ignoresWith_pure ?_
      exact List.forall_mem_cons.2 ⟨hfound v rfl, hworkers⟩
    next => exact (ignores_note _ _).bind_with fun _ => ih hrest

theorem ignores_runAll {image : String} (himage : ∀ n, image ≠ Adapter.reportPath n)
    {workers : List Worker} (h : ∀ v ∈ workers, IgnoresEach kept free w v) :
    Ignores kept free w (runAll image workers) := by
  induction workers with
  | nil => exact ignores_pure _
  | cons v workers ih =>
    obtain ⟨hv, hrest⟩ := List.forall_mem_cons.1 h
    rw [runAll]
    exact (hv image himage).attempt.bind fun _ => (ih hrest).bind fun _ => ignores_pure _

/-- An analysis ignores what the searches for its tools and their workers ignore. -/
theorem ignores_analyze {probes : List (Run Probe)}
    (h : ∀ probe ∈ probes, SearchIgnores kept free w probe) (image : String) (watching : Bool)
    (completion : Option (List Nat)) :
    Ignores kept free w (analyze image probes watching completion) := by
  refine (ignoresWith_requireValid image).bind_ignores fun _ himage => ?_
  refine ignores_isCancelled.bind fun _ => ?_
  extract_lets started
  have hstarted : ∀ u, Ignores kept free w (started u) := by
    intro u
    refine (ignoresWith_available h).bind_ignores fun workers hworkers => ?_
    refine .ite ((ignores_note _ _).bind fun _ => ignores_pure _) ?_
    refine (ignores_runAll himage hworkers).bind fun outcomes => ?_
    exact (ignores_mergeAll _ _ _).bind fun _ => ignores_pure _
  exact .ite ((ignores_fail _).bind hstarted) (hstarted ())

/-! ## Analyzing several images -/

theorem ignores_analyzeOne {probes : List (Run Probe)}
    (h : ∀ probe ∈ probes, SearchIgnores kept free w probe) (image : String) (watching : Bool) :
    Ignores kept free w (analyzeOne image probes watching) := by
  refine (ignores_analyze h image watching none).attempt.bind fun result => ?_
  split
  · exact ignores_pure _
  · exact (ignores_note _ _).bind fun _ => ignores_pure _
  · exact ignores_throw _

theorem ignores_compareEach {images : List (String × List (Run Probe))} (watching : Bool)
    (h : ∀ i ∈ images, ∀ probe ∈ i.2, SearchIgnores kept free w probe) :
    Ignores kept free w (compareEach watching images) := by
  induction images with
  | nil => exact ignores_pure _
  | cons i rest ih =>
    obtain ⟨hi, hrest⟩ := List.forall_mem_cons.1 h
    refine (ignores_analyzeOne hi i.1 watching).attempt.bind fun outcome => ?_
    exact (ih hrest).bind fun _ => ignores_pure _

theorem ignores_compare {images : List (String × List (Run Probe))} (watching : Bool)
    (h : ∀ i ∈ images, ∀ probe ∈ i.2, SearchIgnores kept free w probe) :
    Ignores kept free w (compare images watching) := by
  refine (ignores_compareEach watching h).bind fun outcomes => ?_
  induction outcomes with
  | nil => exact ignores_pure _
  | cons r rest ih =>
    rw [List.mapM_cons]
    exact (ignores_ofExcept r).bind fun _ => ih.bind fun _ => ignores_pure _

theorem searchIgnores_standard (hw : w.LeavesAlone kept) (hfree : Adapter.Overlooks w kept free)
    (timeouts : Timeouts) (watching : Bool) :
    ∀ probe ∈ standardProbes timeouts watching, SearchIgnores kept free w probe := by
  intro probe hprobe
  obtain ⟨a, -, rfl⟩ := List.mem_map.1 hprobe
  refine (Adapter.ignores_locate a).bind_with fun found => ?_
  refine .ite (ignoresWith_pure ?_) (ignoresWith_pure ?_)
  · rintro v ⟨⟩ image himage
    exact (Adapter.ignores_run hfree hw found.2 himage watching).map _
  · rintro v ⟨⟩

end Analysis

namespace Pull

variable (hw : w.LeavesAlone kept) (hfree : ∀ p, free p → kept p) {image : String}
  (himage : ∀ n, image ≠ Adapter.reportPath n)
include hw hfree himage

theorem ignores_once (runtime : String) (timeout : Binary64) :
    Ignores kept free w (once runtime image timeout) := by
  refine (Adapter.ignores_call hw hfree rfl himage _ _ _ _).attempt.bind fun result => ?_
  split
  · exact ignores_pure _
  · exact .ite (ignores_pure _) (ignores_fail _)
  · exact ignores_throw _

theorem ignores_attempts (runtime : String) (timeout : Binary64) (pauses : List Rat) :
    Ignores kept free w (attempts runtime image timeout pauses) := by
  induction pauses with
  | nil =>
    refine (ignores_once hw hfree himage runtime timeout).bind fun result => ?_
    split
    · exact ignores_pure _
    · exact ignores_fail _
  | cons seconds rest ih =>
    refine (ignores_once hw hfree himage runtime timeout).bind fun result => ?_
    split
    · exact ignores_pure _
    · refine Ignores.bind (ignores_modify (fun _ => ⟨rfl, rfl⟩) fun m m' hm => ?_) fun _ => ih
      exact ⟨hm.files, congrArg (· + seconds) hm.clock, hm.started, hm.cancelled, hm.catching,
        hm.temporaries⟩

theorem ignores_ensure (runtime : Option String) (timeout : Binary64) :
    Ignores kept free w (ensure image runtime timeout) := by
  unfold ensure
  extract_lets chosen
  have hchosen : ∀ r, Ignores kept free w (chosen r) := by
    intro r
    cases r with
    | none => exact ignores_fail _
    | some runtime =>
      refine (Adapter.ignores_call hw hfree rfl himage _ _ _ _).attempt.bind fun inspected => ?_
      split
      · exact ignores_note _ _
      · refine (ignores_note _ _).bind fun _ => (ignores_note _ _).bind fun _ => ?_
        exact ignores_attempts hw hfree himage runtime timeout pauses
      · exact ignores_throw _
  split
  · exact (ignores_pure _).bind hchosen
  · exact Tools.ignores_runtime?.bind hchosen

omit himage in
theorem ignores_ensureAll (timeout : Binary64) (ignoreErrors : Bool) (images : List String) :
    Ignores kept free w (ensureAll timeout ignoreErrors images) := by
  induction images with
  | nil => exact ignores_pure _
  | cons image rest ih =>
    have hprepare : Ignores kept free w (prepare image timeout) :=
      (Analysis.ignoresWith_requireValid image).bind_ignores fun _ himage =>
        ignores_ensure hw hfree himage none timeout
    refine hprepare.attempt.bind fun result => ?_
    split
    · exact ih.bind fun _ => ignores_pure _
    · exact .ite ((ignores_note _ _).bind fun _ => ih) (ignores_fail _)
    · exact ignores_throw _

end Pull

end ContainerDocs

import ContainerDocs.Proofs.Analysis.Frame
import ContainerDocs.Proofs.Tool.Reports

/-!
# Analyses that the disk determines

In a steady world, an analysis of an accepted image has a result that depends on the disk only. So
each image of a comparison has the result that it has alone, and an image is there or not whatever
is done before.

## Main definitions

* `Analysis.Alone` — the result of an image that is analyzed alone.
* `Pull.IsReady` — an image that can be prepared on a disk.

## Main statements

* `Analysis.determined_analyze` — an analysis has a result.
* `Analysis.exists_gives_compare` — the results of a comparison are those of its images alone.
* `Pull.gives_ensureAll` — the images that are there are those that can be prepared.
-/

namespace ContainerDocs

open Run

variable {w : World} {makes : Bool} {image : String}

/-! ## One image -/

namespace Analysis

/-- An image that is not accepted is one whose reference is invalid. -/
theorem exists_invalidImage_of_validate {f : Failure} (h : validate image = .error f) :
    ∃ f', f = .invalidImage f' := by
  rw [validate] at h
  split_ifs at h
  · cases h
    exact ⟨.missing, rfl⟩
  · cases hparse : ImageReference.parse image with
    | error e =>
      rw [hparse] at h
      cases h
      exact ⟨.malformed image e, rfl⟩
    | ok r =>
      rw [hparse] at h
      cases h

theorem requireValid_eq {r : ImageReference} (h : validate image = .ok r) :
    requireValid image = pure () := by
  rw [requireValid, h]

theorem determined_mergeAll {stats : ImageStats} {os : List Outcome}
    (hos : ∀ o ∈ os, o.result ≠ .error .interrupted) :
    Determined w makes (fun _ => False) (fun s => s.imageTag = stats.imageTag)
      (mergeAll image stats os) := by
  induction os generalizing stats with
  | nil => exact determined_pure rfl
  | cons o os ih =>
    obtain ⟨ho, hrest⟩ := List.forall_mem_cons.1 hos
    rw [mergeAll]
    split
    next h => exact absurd h ho
    next reason _ h => exact (determined_note _ _).bind fun _ _ => ih hrest
    next found h =>
      refine (determined_note _ _).bind fun _ _ => (ih hrest).mono (fun s hs => ?_) fun _ => id
      rw [hs]
      cases found <;> rfl

/-- The runs of a tool that was found are determined by the disk. -/
def RunsDetermined (w : World) (v : Worker) : Prop :=
  ∀ image r, validate image = .ok r →
    Determined w true (· ≠ .interrupted) (fun _ => True) (v.run image)

/-- What a search finds is determined by the disk, and so are the runs of the tool. -/
def SearchDetermined (w : World) (probe : Run Probe) : Prop :=
  Determined w true (fun _ => False) (fun found => ∀ v, found = .available v → RunsDetermined w v)
    probe

theorem determined_available {probes : List (Run Probe)}
    (h : ∀ probe ∈ probes, SearchDetermined w probe) :
    Determined w true (fun _ => False) (fun workers => ∀ v ∈ workers, RunsDetermined w v)
      (available probes) := by
  induction probes with
  | nil => exact determined_pure (by simp)
  | cons probe rest ih =>
    obtain ⟨hprobe, hrest⟩ := List.forall_mem_cons.1 h
    refine hprobe.bind fun found hfound => ?_
    split
    next v =>
      refine (ih hrest).bind fun workers hworkers => determined_pure ?_
      exact List.forall_mem_cons.2 ⟨hfound v rfl, hworkers⟩
    next => exact (determined_note _ _).bind fun _ _ => ih hrest

theorem determined_runAll {r : ImageReference} (himage : validate image = .ok r)
    {workers : List Worker} (h : ∀ v ∈ workers, RunsDetermined w v) :
    Determined w true (fun _ => False) (fun os => ∀ o ∈ os, o.result ≠ .error .interrupted)
      (runAll image workers) := by
  induction workers with
  | nil => exact determined_pure (by simp)
  | cons v workers ih =>
    obtain ⟨hv, hrest⟩ := List.forall_mem_cons.1 h
    rw [runAll]
    refine (hv image r himage).attempt.bind fun result hresult => ?_
    refine (ih hrest).bind fun os hos => determined_pure ?_
    exact List.forall_mem_cons.2 ⟨fun hi => hresult.2 _ hi rfl, hos⟩

/-- In a steady world an analysis of an accepted image has a result that is determined by the
disk. -/
theorem determined_analyze (hw : w.IsSteady) {r : ImageReference}
    (himage : validate image = .ok r) {probes : List (Run Probe)}
    (h : ∀ probe ∈ probes, SearchDetermined w probe) (watching : Bool) :
    Determined w true (fun _ => False) (·.imageTag = image)
      (analyze image probes watching none) := by
  rw [analyze, requireValid_eq himage, pure_bind]
  refine Determined.bind (determined_isCancelled hw) fun cancelled hcancelled => ?_
  subst hcancelled
  rw [Bool.and_false, if_neg Bool.false_ne_true]
  refine (determined_available h).bind fun workers hworkers => ?_
  refine .ite ((determined_note _ _).bind fun _ _ => determined_pure rfl) ?_
  refine (determined_runAll himage hworkers).bind fun os hos => ?_
  exact (determined_mergeAll hos).bind fun s hs => determined_pure hs

theorem searchDetermined_standard (hw : w.IsSteady) (hreports : w.WritesReportsOnly)
    (timeouts : Timeouts) (watching : Bool) :
    ∀ probe ∈ standardProbes timeouts watching, SearchDetermined w probe := by
  intro probe hprobe
  obtain ⟨a, -, rfl⟩ := List.mem_map.1 hprobe
  refine (Adapter.determined_locate a).bind fun found _ => ?_
  refine .ite (determined_pure ?_) (determined_pure ?_)
  · rintro v ⟨⟩ image r himage
    exact (Adapter.determined_run hw hreports found.2 (ne_reportPath_of_validate himage)
      watching).map _
  · rintro v ⟨⟩

/-! ## Several images -/

/-- On a disk with the files of another one, and maybe more temporary files, an image that is
analyzed alone has a result. -/
def Alone (w : World) (d : Disk) (probes : List (Run Probe)) (watching : Bool) (image : String)
    (s : ImageStats) : Prop :=
  ∃ n d', d.temporaries ≤ n ∧
    Gives w (Disk.On ⟨d.files, n⟩) (analyze image probes watching none) (.ok s) (Disk.On d')

theorem Alone.of_extends {d d' : Disk} {probes : List (Run Probe)} {watching : Bool}
    {s : ImageStats} (h : Alone w d' probes watching image s) (hext : d.Extends true d') :
    Alone w d probes watching image s := by
  obtain ⟨n, d'', hn, hgives⟩ := h
  rw [hext.files] at hgives
  exact ⟨n, d'', hext.le.trans hn, hgives⟩

theorem gives_analyzeOne {before after : Machine → Prop} {probes : List (Run Probe)}
    {watching : Bool} {s : ImageStats}
    (h : Gives w before (analyze image probes watching none) (.ok s) after) :
    Gives w before (analyzeOne image probes watching) (.ok s) after :=
  h.attempt.bind (gives_pure w after s)

theorem gives_mapM_ofExcept (before : Machine → Prop) (stats : List ImageStats) :
    Gives w before ((stats.map Except.ok).mapM Run.ofExcept) (.ok stats) before := by
  induction stats with
  | nil => exact gives_pure w before []
  | cons s stats ih =>
    rw [List.map_cons, List.mapM_cons]
    exact (gives_ofExcept w before (.ok s)).bind (ih.bind (gives_pure w before _))

section Compare

variable (hw : w.IsSteady) {probes : List (Run Probe)}
  (hprobes : ∀ probe ∈ probes, SearchDetermined w probe)
include hw hprobes

theorem exists_gives_compareEach (watching : Bool) {images : List String}
    (himages : ∀ image ∈ images, ∃ r, validate image = .ok r) (d : Disk) :
    ∃ stats d', Gives w d.On (compareEach watching (images.map fun image => (image, probes)))
        (.ok (stats.map .ok)) (Disk.On d') ∧
      d.Extends true d' ∧
      List.Forall₂ (fun image s => Alone w d probes watching image s ∧ s.imageTag = image)
        images stats := by
  induction images generalizing d with
  | nil => exact ⟨[], d, gives_pure w d.On [], .refl true d, .nil⟩
  | cons image images ih =>
    obtain ⟨⟨r, himage⟩, himages⟩ := List.forall_mem_cons.1 himages
    obtain ⟨result, d₁, hresult, hext, hs, herror⟩ :=
      determined_analyze hw himage hprobes watching d
    cases result with
    | error e => exact (herror e rfl).elim
    | ok s =>
      obtain ⟨stats, d₂, hstats, hext', hall⟩ := ih himages d₁
      refine ⟨s :: stats, d₂, ?_, hext.trans hext', .cons ⟨?_, hs s rfl⟩ ?_⟩
      · exact (gives_analyzeOne hresult).attempt.bind (hstats.bind (gives_pure w d₂.On _))
      · exact ⟨d.temporaries, d₁, le_rfl, hresult⟩
      · exact hall.imp fun image t ht => ⟨ht.1.of_extends hext, ht.2⟩

/-- In a steady world a comparison of accepted images has results: for each image, in their order,
what an analysis of the image alone gives. -/
theorem exists_gives_compare (watching : Bool) {images : List String}
    (himages : ∀ image ∈ images, ∃ r, validate image = .ok r) (d : Disk) :
    ∃ stats d', Gives w d.On (compare (images.map fun image => (image, probes)) watching)
        (.ok stats) (Disk.On d') ∧
      d.Extends true d' ∧
      List.Forall₂ (fun image s => Alone w d probes watching image s ∧ s.imageTag = image)
        images stats := by
  obtain ⟨stats, d', hstats, hext, hall⟩ :=
    exists_gives_compareEach hw hprobes watching himages d
  exact ⟨stats, d', hstats.bind (gives_mapM_ofExcept d'.On stats), hext, hall⟩

end Compare
end Analysis

/-! ## Preparing images -/

namespace Pull

/-- A reason for which an image is left out. -/
inductive IsSkipped : Stop → Prop where
  | invalid (f : ImageFailure) : IsSkipped (.failure (.invalidImage f))
  | pull (f : PullFailure) : IsSkipped (.failure (.pull f))

variable (hw : w.IsSteady) (hreports : w.WritesReportsOnly)
  (himage : ∀ n, image ≠ Adapter.reportPath n)
include hw hreports himage

theorem determined_once (runtime : String) (timeout : Binary64) :
    Determined w makes (fun _ => False) (fun _ => True) (once runtime image timeout) := by
  refine (determined_command hw hreports rfl himage _ _ _ _).attempt.bind fun result hresult => ?_
  split
  · exact determined_pure trivial
  next f =>
    obtain ⟨f', hf, hend⟩ := hresult.2 _ rfl
    cases hf
    have hpass : mayPass f = true := by
      cases hend <;> rfl
    rw [if_pos hpass]
    exact determined_pure trivial
  next e hother =>
    obtain ⟨f, rfl, -⟩ := hresult.2 _ rfl
    exact absurd rfl (hother f)

theorem determined_attempts (runtime : String) (timeout : Binary64) (pauses : List Rat) :
    Determined w makes IsSkipped (fun _ => True) (attempts runtime image timeout pauses) := by
  induction pauses with
  | nil =>
    refine ((determined_once hw hreports himage runtime timeout).mono (fun _ => id)
      fun _ => False.elim).bind fun result _ => ?_
    split
    · exact determined_pure trivial
    · exact determined_throw (.pull _)
  | cons seconds rest ih =>
    refine ((determined_once hw hreports himage runtime timeout).mono (fun _ => id)
      fun _ => False.elim).bind fun result _ => ?_
    split
    · exact determined_pure trivial
    · exact (determined_pause seconds).bind fun _ _ => ih

theorem determined_ensure (runtime : Option String) (timeout : Binary64) :
    Determined w makes IsSkipped (fun _ => True) (ensure image runtime timeout) := by
  unfold ensure
  extract_lets chosen
  have hchosen : ∀ r, Determined w makes IsSkipped (fun _ => True) (chosen r) := by
    intro r
    cases r with
    | none => exact determined_throw (.pull _)
    | some runtime =>
      refine (determined_command hw hreports rfl himage _ _ _ _).attempt.bind
        fun inspected hinspected => ?_
      split
      · exact determined_note _ _
      · refine (determined_note _ _).bind fun _ _ => (determined_note _ _).bind fun _ _ => ?_
        exact determined_attempts hw hreports himage runtime timeout pauses
      next e hother =>
        obtain ⟨f, rfl, -⟩ := hinspected.2 _ rfl
        exact absurd rfl (hother f)
  split
  next r _ =>
    have hgiven : Determined w makes IsSkipped (fun _ => True) (pure (some r)) :=
      determined_pure trivial
    exact hgiven.bind fun r _ => hchosen r
  · exact Tools.determined_runtime?.bind fun r _ => hchosen r

omit himage in
theorem determined_prepare (image : String) (timeout : Binary64) :
    Determined w makes IsSkipped (fun _ => ∃ r, Analysis.validate image = .ok r)
      (prepare image timeout) := by
  rw [prepare]
  cases himage : Analysis.validate image with
  | error f =>
    obtain ⟨f', rfl⟩ := Analysis.exists_invalidImage_of_validate himage
    rw [Analysis.requireValid, himage]
    exact (determined_throw (.invalid f')).bind fun _ h => h
  | ok r =>
    rw [Analysis.requireValid_eq himage, pure_bind]
    have hplace := Analysis.ne_reportPath_of_validate himage
    exact (determined_ensure hw hreports hplace none timeout).mono (fun _ _ => ⟨r, rfl⟩) fun _ => id

def IsReady (w : World) (d : Disk) (timeout : Binary64) (image : String) : Prop :=
  Gives w d.On (prepare image timeout) (.ok ()) d.On

omit himage in
theorem validate_of_isReady {d : Disk} {timeout : Binary64}
    (h : IsReady w d timeout image) : ∃ r, Analysis.validate image = .ok r := by
  have hprepare : Determined w false IsSkipped _ (prepare image timeout) :=
    determined_prepare hw hreports image timeout
  obtain ⟨r, d', hr, -, hvalid, -⟩ := hprepare d
  exact hvalid () (hr.unique h)

omit himage in
/-- When failures are ignored, the images that are there are those that can be prepared, in their
order. -/
theorem gives_ensureAll {d : Disk} {timeout : Binary64} {ready : String → Bool}
    (hready : ∀ image, ready image = true ↔ IsReady w d timeout image) (images : List String) :
    Gives w d.On (ensureAll timeout true images) (.ok (images.filter ready)) d.On := by
  induction images with
  | nil => exact gives_pure w d.On []
  | cons image images ih =>
    have hprepare : Determined w false IsSkipped _ (prepare image timeout) :=
      determined_prepare hw hreports image timeout
    obtain ⟨r, d', hr, hext, -, hskipped⟩ := hprepare d
    obtain rfl := hext.eq
    cases r with
    | ok u =>
      rw [List.filter_cons_of_pos ((hready image).2 hr)]
      exact hr.attempt.bind (ih.bind (gives_pure w d'.On _))
    | error e =>
      have hleft : ¬ready image = true := by
        rw [hready image]
        intro h
        cases hr.unique h
      rw [List.filter_cons_of_neg hleft]
      cases hskipped e rfl with
      | invalid f => exact hr.attempt.bind ((gives_note w d' _ _).bind ih)
      | pull f => exact hr.attempt.bind ((gives_note w d' _ _).bind ih)

end Pull
end ContainerDocs

import ContainerDocs.Proofs.Program.Parts

/-!
# Strict runs

A strict run stops at the first statistics that carry a warning. Up to there it does what any other
run does, so it either stops or does the same as the run that is not strict.

## Main definitions

* `Run.seenAfter` — what is seen on the machine that a step leaves.
* `Generate.analyzed` — the statistics of the images that a run analyzes.
* `Run.Refuses` — a step does the same as another one unless warnings are seen, and else it stops.

## Main statements

* `Run.Refuses.bind` — steps in a row refuse what one of them refuses.
* `Generate.run_strict` — when a strict run ends well, and what it does then.
-/

namespace ContainerDocs

open Run

variable {w : World} {α β : Type}

/-! ## Refusals -/

namespace Run

/-- What is seen on the machine that a step leaves; nothing if the step stops. -/
def seenAfter (w : World) (step : Run α) (seen : α → Machine → List ImageStats) (m : Machine) :
    List ImageStats :=
  match exec step w m with
  | (.ok a, m') => seen a m'
  | (.error _, _) => []

theorem seenAfter_of_ok {step : Run α} {seen : α → Machine → List ImageStats} {m m' : Machine}
    {a : α} (h : exec step w m = (.ok a, m')) : seenAfter w step seen m = seen a m' := by
  rw [seenAfter, h]

theorem seenAfter_of_error {step : Run α} {seen : α → Machine → List ImageStats} {m m' : Machine}
    {e : Stop} (h : exec step w m = (.error e, m')) : seenAfter w step seen m = [] := by
  rw [seenAfter, h]

@[simp] theorem seenAfter_pure (a : α) (seen : α → Machine → List ImageStats) :
    seenAfter w (pure a) seen = seen a := rfl

@[simp] theorem seenAfter_bind (step : Run α) (next : α → Run β)
    (seen : β → Machine → List ImageStats) :
    seenAfter w (step >>= next) seen = seenAfter w step fun a => seenAfter w (next a) seen := by
  funext m
  rw [seenAfter, seenAfter, exec_bind]
  rcases exec step w m with ⟨e | a, m₁⟩ <;> rfl

@[simp] theorem seenAfter_map (f : α → β) (step : Run α) (seen : β → Machine → List ImageStats) :
    seenAfter w (f <$> step) seen = seenAfter w step fun a => seen (f a) := by
  rw [map_eq_pure_bind, seenAfter_bind]
  rfl

/-- The first step does the same as the second one if the statistics that are seen carry no
warnings, and else it stops. -/
def Refuses (w : World) (seen : Machine → List ImageStats) (strict lenient : Run α) : Prop :=
  ∀ m, ((∀ s ∈ seen m, s.warnings = []) → exec strict w m = exec lenient w m) ∧
    ((∃ s ∈ seen m, s.warnings ≠ []) → (exec strict w m).1.isOk = false)

namespace Refuses

variable {seen : Machine → List ImageStats} {strict lenient : Run α}

theorem refl (step : Run α) : Refuses w (fun _ => []) step step :=
  fun _ => ⟨fun _ => rfl, fun ⟨_, h, _⟩ => nomatch h⟩

theorem check (stats : List ImageStats) :
    Refuses w (fun _ => stats) (Steps.orFail (Analysis.checkStrict true stats))
      (Steps.orFail (Analysis.checkStrict false stats)) := by
  intro m
  rw [Analysis.checkStrict, if_pos rfl]
  cases hfind : stats.find? (!·.warnings.isEmpty) with
  | none =>
    refine ⟨fun _ => rfl, fun ⟨s, hs, hwarnings⟩ => ?_⟩
    have hempty := List.find?_eq_none.1 hfind s hs
    simp_all
  | some s =>
    refine ⟨fun h => ?_, fun _ => rfl⟩
    have hwarnings := List.find?_some hfind
    rw [h s (List.mem_of_find?_eq_some hfind)] at hwarnings
    cases hwarnings

/-- Steps in a row refuse what one of them refuses. -/
theorem bind {seen' : α → Machine → List ImageStats} {strict' lenient' : α → Run β}
    (h : Refuses w seen strict lenient) (h' : ∀ a, Refuses w (seen' a) (strict' a) (lenient' a)) :
    Refuses w (fun m => seen m ++ seenAfter w lenient seen' m) (strict >>= strict')
      (lenient >>= lenient') := by
  intro m
  obtain ⟨hsame, hstop⟩ := h m
  by_cases hwarnings : ∃ s ∈ seen m, s.warnings ≠ []
  · constructor
    · intro hnone
      obtain ⟨s, hs, hne⟩ := hwarnings
      exact absurd (hnone s (List.mem_append_left _ hs)) hne
    · intro _
      have hfirst := hstop hwarnings
      rw [exec_bind]
      rcases hm : exec strict w m with ⟨e | a, m₁⟩
      · rfl
      · rw [hm] at hfirst
        cases hfirst
  · push Not at hwarnings
    rw [exec_bind, exec_bind, hsame hwarnings]
    rcases hm : exec lenient w m with ⟨e | a, m₁⟩
    · exact ⟨fun _ => rfl, fun _ => rfl⟩
    · dsimp only
      rw [seenAfter_of_ok hm]
      obtain ⟨hsame', hstop'⟩ := h' a m₁
      refine ⟨fun hnone => hsame' fun s hs => hnone s (List.mem_append_right _ hs), ?_⟩
      rintro ⟨s, hs, hne⟩
      refine hstop' ⟨s, (List.mem_append.1 hs).resolve_left fun hs => ?_, hne⟩
      exact hne (hwarnings s hs)

/-- Steps refuse what the first of them refuses when the rest is the same. -/
theorem bind_left (h : Refuses w seen strict lenient) (next : α → Run β) :
    Refuses w seen (strict >>= next) (lenient >>= next) := by
  have hnone : ∀ m, seenAfter w lenient (fun _ _ => []) m = [] := by
    intro m
    rcases hm : exec lenient w m with ⟨e | a, m₁⟩
    · exact seenAfter_of_error hm
    · exact seenAfter_of_ok hm
  simpa only [hnone, List.append_nil] using h.bind fun a => refl (next a)

theorem bind_right (step : Run α) {seen' : α → Machine → List ImageStats}
    {strict' lenient' : α → Run β} (h : ∀ a, Refuses w (seen' a) (strict' a) (lenient' a)) :
    Refuses w (seenAfter w step seen') (step >>= strict') (step >>= lenient') :=
  (refl step).bind h

theorem map (h : Refuses w seen strict lenient) (f : α → β) :
    Refuses w seen (f <$> strict) (f <$> lenient) := by
  rw [map_eq_pure_bind, map_eq_pure_bind]
  exact h.bind_left _

theorem catching (h : Refuses w seen strict lenient) :
    Refuses w (fun m => seen { m with catching := true, cancelled := false }) (catching strict)
      (catching lenient) := by
  intro m
  obtain ⟨hsame, hstop⟩ := h { m with catching := true, cancelled := false }
  rw [exec_catching, exec_catching]
  exact ⟨fun hnone => by rw [hsame hnone], hstop⟩

end Refuses

end Run

/-! ## The statistics of a run -/

namespace Generate

variable (o : GenerateOptions) (c : Config) (directory : String)

/-- The statistics of an image, unless it is skipped, before they are checked. -/
def found (timeouts : Timeouts) (image : String) : Run (Option ImageStats) := do
  let ready ← Pull.ensureAll timeouts.scan o.ignoreErrors [image]
  if ready.isEmpty then return none
  else
    Run.info ("Analyzing image: " ++ image ++ " ...")
    let stats ← Analysis.analyze image (Analysis.standardProbes timeouts true) true none
    giveUpIfCancelled
    return some stats

def compared (s : Config.Section) : Run (List Config.Image × List ImageStats) := do
  let ready ← Pull.ensureAll c.timeouts.scan o.ignoreErrors (s.images.map (·.tag))
  let images := s.images.filter fun i => ready.contains i.tag
  if images.isEmpty then return ([], [])
  else
    let tags := images.map (·.tag)
    Run.info ("Analyzing comparison: " ++ ", ".intercalate tags ++ " ...")
    let probes := Analysis.standardProbes c.timeouts true
    let stats ← Analysis.compare (tags.map fun tag => (tag, probes)) true
    giveUpIfCancelled
    return (images, stats)

theorem analyze_eq (timeouts : Timeouts) (image : String) :
    analyze o timeouts image = found o timeouts image >>= fun stats =>
      Steps.orFail (Analysis.checkStrict o.strict stats.toList) >>= fun _ => pure stats := by
  rw [analyze, found, bind_assoc]
  refine bind_congr fun ready => ?_
  by_cases hready : ready.isEmpty = true
  · rw [if_pos hready, if_pos hready, pure_bind]
    cases o.strict <;> rfl
  · rw [if_neg hready, if_neg hready]
    simp only [bind_assoc, pure_bind]
    rfl

theorem comparisonSection_eq (index : Nat) (s : Config.Section) (selection : Selection)
    (options : ReportOptions) (h : s.images.isEmpty = false) :
    comparisonSection o c index s selection options = compared o c s >>= fun (images, stats) =>
      Steps.orFail (Analysis.checkStrict o.strict stats) >>= fun _ =>
        if images.isEmpty then pure none
        else some <$>
          Steps.comparisonReport stats (images.map (·.displayName)) options selection := by
  rw [comparisonSection, if_neg (Bool.eq_false_iff.1 h), compared, bind_assoc]
  refine bind_congr fun ready => ?_
  dsimp only
  split
  next hnone =>
    rw [pure_bind]
    cases o.strict <;> rfl
  next hsome => simp only [bind_assoc, pure_bind, if_neg hsome, map_eq_pure_bind]

def sectionFound (s : Config.Section) : Run (List ImageStats) :=
  if s.type = Config.imageType then do
    let _ ← Steps.documentation (s.sourceFor directory)
    match Selection.filled s.tag with
    | some tag => Option.toList <$> found o c.timeouts tag
    | none => pure []
  else if s.type = Config.comparisonType then
    if s.images.isEmpty then pure [] else Prod.snd <$> compared o c s
  else pure []

/-- The statistics that sections from a number on analyze, until the run stops. -/
def sectionsAnalyzed (w : World) (index : Nat) (content : Option Text) :
    List Config.Section → Machine → List ImageStats
  | [], _ => []
  | s :: rest, m =>
    seenAfter w (noteTemplate o (selectionFor o c s) s.type)
        (fun _ => seenAfter w (sectionFound o c directory s) fun stats _ => stats) m ++
      seenAfter w (sectionStep o c directory index content s)
        (fun content => sectionsAnalyzed w (index + 1) content rest) m

/-- The statistics that a run for one Dockerfile analyzes, until it stops. -/
def documentAnalyzed (w : World) : Machine → List ImageStats :=
  seenAfter w (Steps.documentation o.dockerfile) fun _ =>
    if o.image.isEmpty then fun _ => []
    else fun m => seenAfter w (found o {} o.image) (fun stats _ => stats.toList)
      { m with catching := true, cancelled := false }

/-- The statistics that a run analyzes, until it stops. -/
def analyzed (w : World) : Machine → List ImageStats :=
  match Selection.filled o.config with
  | some path => seenAfter w (opening path) fun (c, directory) m =>
      sectionsAnalyzed o c directory w 0 none c.sections
        { m with catching := true, cancelled := false }
  | none => documentAnalyzed o w

/-! ## What a strict run refuses -/

section Refuses

theorem analyze_refuses (timeouts : Timeouts) (image : String) :
    Refuses w (seenAfter w (found o timeouts image) fun stats _ => stats.toList)
      (analyze { o with strict := true } timeouts image)
      (analyze { o with strict := false } timeouts image) := by
  rw [analyze_eq, analyze_eq]
  exact .bind_right (found o timeouts image) fun stats => (Refuses.check _).bind_left _

theorem comparison_refuses (index : Nat) (s : Config.Section) (selection : Selection)
    (options : ReportOptions) (h : s.images.isEmpty = false) :
    Refuses w (seenAfter w (compared o c s) fun r _ => r.2)
      (comparisonSection { o with strict := true } c index s selection options)
      (comparisonSection { o with strict := false } c index s selection options) := by
  rw [comparisonSection_eq _ _ _ _ _ _ h, comparisonSection_eq _ _ _ _ _ _ h]
  exact .bind_right (compared o c s) fun r => (Refuses.check _).bind_left _

theorem imageSection_refuses (s : Config.Section) (selection : Selection) (options : ReportOptions)
    (htype : s.type = Config.imageType) :
    Refuses w (seenAfter w (sectionFound o c directory s) fun stats _ => stats)
      (imageSection { o with strict := true } c directory s selection options)
      (imageSection { o with strict := false } c directory s selection options) := by
  rw [sectionFound, if_pos htype, seenAfter_bind, imageSection, imageSection]
  refine .bind_right _ fun d => ?_
  cases Selection.filled s.tag with
  | none =>
    rw [seenAfter_pure]
    exact .refl _
  | some tag =>
    rw [seenAfter_map]
    exact (analyze_refuses o c.timeouts tag).bind_left _

theorem sectionReport_refuses (index : Nat) (s : Config.Section) (selection : Selection)
    (options : ReportOptions) :
    Refuses w (seenAfter w (sectionFound o c directory s) fun stats _ => stats)
      (sectionReport { o with strict := true } c directory index s selection options)
      (sectionReport { o with strict := false } c directory index s selection options) := by
  rw [sectionReport, sectionReport]
  by_cases hkind : s.type = Config.imageType
  · rw [if_pos hkind, if_pos hkind]
    exact (imageSection_refuses o c directory s selection options hkind).bind_left _
  · rw [if_neg hkind, if_neg hkind, sectionFound, if_neg hkind]
    by_cases hcomparison : s.type = Config.comparisonType
    · rw [if_pos hcomparison, if_pos hcomparison, if_pos hcomparison]
      cases hempty : s.images.isEmpty with
      | true =>
        rw [comparisonSection, comparisonSection, if_pos hempty, if_pos hempty]
        exact .refl _
      | false =>
        rw [if_neg (by simp), seenAfter_map]
        exact comparison_refuses o c index s selection options hempty
    · rw [if_neg hcomparison, if_neg hcomparison, if_neg hcomparison]
      exact .refl _

theorem sectionStep_refuses (index : Nat) (content : Option Text) (s : Config.Section) :
    Refuses w (seenAfter w (noteTemplate o (selectionFor o c s) s.type)
        fun _ => seenAfter w (sectionFound o c directory s) fun stats _ => stats)
      (sectionStep { o with strict := true } c directory index content s)
      (sectionStep { o with strict := false } c directory index content s) :=
  (Refuses.bind_right (noteTemplate o (selectionFor o c s) s.type) fun _ =>
    sectionReport_refuses o c directory index s (selectionFor o c s) (optionsFor o c)).bind_left _

theorem sections_refuse (index : Nat) (content : Option Text) (ss : List Config.Section) :
    Refuses w (sectionsAnalyzed { o with strict := false } c directory w index content ss)
      (sectionsOf { o with strict := true } c directory index content ss)
      (sectionsOf { o with strict := false } c directory index content ss) := by
  induction ss generalizing index content with
  | nil => exact .refl _
  | cons s rest ih =>
    rw [sectionsOf_cons, sectionsOf_cons]
    exact (sectionStep_refuses o c directory index content s).bind fun content =>
      ih (index + 1) content

theorem document_refuses :
    Refuses w (documentAnalyzed { o with strict := false } w) (document { o with strict := true })
      (document { o with strict := false }) := by
  refine .bind_right (Steps.documentation o.dockerfile) fun d => ?_
  extract_lets selection rest selection' rest'
  by_cases himage : o.image.isEmpty = true
  · rw [if_pos himage, if_pos himage, if_pos himage]
    exact .refl _
  · rw [if_neg himage, if_neg himage, if_neg himage]
    exact (analyze_refuses o {} o.image).catching.bind_left _

theorem run_refuses :
    Refuses w (analyzed { o with strict := false } w) (run { o with strict := true })
      (run { o with strict := false }) := by
  rw [analyzed, run, run]
  cases Selection.filled o.config with
  | none => exact document_refuses o
  | some path =>
    dsimp only
    rw [fromConfig_eq, fromConfig_eq]
    refine .bind_right (opening path) fun r => ?_
    exact (sections_refuse o r.1 r.2 0 none r.1.sections).catching.bind_left _

end Refuses

/-- A strict run ends well exactly if the run that is not strict does and has analyzed no statistics
with a warning, and then the two do the same. -/
theorem run_strict (w : World) (m : Machine) :
    let strict := exec (run { o with strict := true }) w m
    let lenient := exec (run { o with strict := false }) w m
    (strict.1.isOk = true ↔ lenient.1.isOk = true ∧
      ∀ s ∈ analyzed { o with strict := false } w m, s.warnings = []) ∧
    (strict.1.isOk = true → strict = lenient) := by
  intro strict lenient
  obtain ⟨hsame, hstop⟩ := run_refuses o (w := w) m
  by_cases hnone : ∀ s ∈ analyzed { o with strict := false } w m, s.warnings = []
  · have heq : strict = lenient := hsame hnone
    rw [heq]
    exact ⟨⟨fun h => ⟨h, hnone⟩, fun h => h.1⟩, fun _ => rfl⟩
  · have hfailed : strict.1.isOk = false := hstop (by push Not at hnone; exact hnone)
    rw [hfailed]
    exact ⟨⟨fun h => (by cases h), fun h => absurd h.2 hnone⟩, fun h => by cases h⟩

end Generate
end ContainerDocs

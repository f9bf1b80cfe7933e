import ContainerDocs.Program.Generate
import ContainerDocs.Proofs.Analysis.Determined
import ContainerDocs.Proofs.System.TextFiles

/-!
# The columns of a comparison

A section that compares images leaves those out that are not there. The others keep their order,
and each one keeps its name and the statistics that it has alone.

## Main definitions

* `Run.Looks` — a step that only looks at files.

## Main statements

* `Generate.gives_comparisonSection` — a section comes to the report about its images that are
  there.
* `Generate.comparison_columns` — the columns of the report.
-/

namespace ContainerDocs

open Run

variable {w : World}

/-! ## Steps that look at files -/

namespace Run

variable {α β : Type} {fs : Files}

/-- In a world, a step changes nothing, and what it gives depends on the files only. -/
def Looks (w : World) (fs : Files) (step : Run α) : Prop :=
  ∃ r, ∀ m : Machine, m.files = fs → exec step w m = (r, m)

theorem Looks.bind {step : Run α} {next : α → Run β} (h : Looks w fs step)
    (h' : ∀ a, Looks w fs (next a)) : Looks w fs (step >>= next) := by
  obtain ⟨r, hr⟩ := h
  cases r with
  | error e => exact ⟨.error e, fun m hm => by rw [exec_bind, hr m hm]⟩
  | ok a =>
    obtain ⟨r', hr'⟩ := h' a
    exact ⟨r', fun m hm => by rw [exec_bind, hr m hm]; exact hr' m hm⟩

theorem looks_ofExcept (r : Except Stop α) : Looks w fs (Run.ofExcept r) :=
  ⟨r, fun m _ => exec_ofExcept r w m⟩

theorem looks_fail (f : Failure) : Looks w fs (fail f : Run α) :=
  ⟨.error (.failure f), fun m _ => exec_fail f w m⟩

theorem looks_readText (path : String) : Looks w fs (readText path) := by
  rcases htext : fs.readText w.place path with (e | e) | text
  · exact ⟨.ok (.error e), fun m hm => by rw [exec_readText, hm, htext]⟩
  · exact ⟨.error (.crash (.decode e)), fun m hm => by rw [exec_readText, hm, htext]⟩
  · exact ⟨.ok (.ok text), fun m hm => by rw [exec_readText, hm, htext]⟩

end Run

namespace Steps

variable {fs : Files}

theorem looks_orFail {α : Type} (r : Except Failure α) : Looks w fs (orFail r) := by
  cases r with
  | ok a => exact ⟨.ok a, fun m _ => exec_pure a w m⟩
  | error f => exact looks_fail f

theorem looks_template (s : Selection) (kind : ReportKind) : Looks w fs (template s kind) := by
  rw [template]
  split
  · exact looks_orFail _
  · refine (looks_readText _).bind fun content => ?_
    split
    · exact looks_fail _
    · exact looks_orFail _

theorem looks_comparisonReport (stats : List ImageStats) (labels : List String)
    (options : ReportOptions) (s : Selection) :
    Looks w fs (comparisonReport stats labels options s) :=
  (looks_template s .comparison).bind fun _ => looks_ofExcept _

end Steps

/-! ## Names -/

/-- Only an image without a tag may have an empty name. -/
theorem Config.Image.tag_of_displayName {i : Config.Image} (h : i.displayName = "") :
    i.tag = "" := by
  cases i with
  | bare tag => exact h
  | entry tag label =>
    rw [displayName] at h
    cases hlabel : Selection.filled label with
    | none =>
      rw [hlabel] at h
      exact h
    | some l =>
      rw [hlabel] at h
      have hl : l.isEmpty = false := by
        have hfilled := Option.mem_filter_iff.1 hlabel
        simpa using hfilled.2
      exact absurd h (by simpa using hl)

/-- Every image has its own name in front of the statistics for its tag. -/
theorem Report.withNames_displayName {images : List Config.Image} {stats : List ImageStats}
    (h : List.Forall₂ (fun i s => s.imageTag = i.tag) images stats) :
    withNames (images.map (·.displayName)) stats = (images.map (·.displayName)).zip stats := by
  induction h with
  | nil => rfl
  | @cons i s images stats hs _ ih =>
    rw [List.map_cons, withNames, List.headD_cons, List.tail_cons, ih, List.zip_cons_cons]
    by_cases hname : i.displayName = ""
    · rw [if_pos (by simp [hname]), hs, Config.Image.tag_of_displayName hname, hname]
    · rw [if_neg (by simpa using hname)]

namespace Generate

theorem filter_contains (images : List Config.Image) (ready : String → Bool) :
    (images.filter fun i => ((images.map (·.tag)).filter ready).contains i.tag) =
      images.filter fun i => ready i.tag := by
  refine List.filter_congr fun i hi => ?_
  rw [List.contains_eq_mem, Bool.eq_iff_iff, decide_eq_true_iff, List.mem_filter]
  exact ⟨fun h => h.2, fun h => ⟨List.mem_map_of_mem hi, h⟩⟩

section Columns

variable (hw : w.IsSteady) (hreports : w.WritesReportsOnly) {d : Disk}
  {o : GenerateOptions} (hignore : o.ignoreErrors = true) (hstrict : o.strict = false)
  {c : Config} {ready : String → Bool}
  (hready : ∀ image, ready image = true ↔ Pull.IsReady w d c.timeouts.scan image)
  (index : Nat) {s : Config.Section} (selection : Selection) (options : ReportOptions)
include hw hreports hignore hready

/-- Nothing is compared when no image is there. -/
theorem gives_comparisonSection_of_none (hnone : (s.images.filter fun i => ready i.tag) = []) :
    Gives w d.On (comparisonSection o c index s selection options) (.ok none) d.On := by
  rw [comparisonSection]
  split_ifs
  · exact (gives_note w d _ _).bind (gives_pure w d.On none)
  · rw [hignore]
    refine (Pull.gives_ensureAll hw hreports hready _).bind ?_
    dsimp only
    rw [filter_contains, hnone]
    exact gives_pure w d.On none

include hstrict

/-- Otherwise the section comes to the report about the images that are there, each with its own
name and with the statistics that it has alone. -/
theorem gives_comparisonSection {images : List Config.Image}
    (himages : (s.images.filter fun i => ready i.tag) = images) (hsome : images ≠ []) :
    let probes := Analysis.standardProbes c.timeouts true
    ∃ stats d' r,
      Gives w d.On (Analysis.compare (images.map fun i => (i.tag, probes)) true) (.ok stats)
        (Disk.On d') ∧
      List.Forall₂ (fun i s => Analysis.Alone w d probes true i.tag s ∧ s.imageTag = i.tag)
        images stats ∧
      (∀ m : Machine, m.files = d.files →
        exec (Steps.comparisonReport stats (images.map (·.displayName)) options selection) w m =
          (r, m)) ∧
      Gives w d.On (comparisonSection o c index s selection options) (r.map some) (Disk.On d') := by
  intro probes
  have hvalid : ∀ tag ∈ images.map (·.tag), ∃ r, Analysis.validate tag = .ok r := by
    intro tag htag
    obtain ⟨i, hi, rfl⟩ := List.mem_map.1 htag
    rw [← himages] at hi
    exact Pull.validate_of_isReady hw hreports ((hready i.tag).1 (List.mem_filter.1 hi).2)
  obtain ⟨stats, d', hcompare, hext, halone⟩ := Analysis.exists_gives_compare hw
    (Analysis.searchDetermined_standard hw hreports c.timeouts true) true hvalid d
  rw [List.map_map] at hcompare
  obtain ⟨r, hreport⟩ : Looks w d.files _ := Steps.looks_comparisonReport stats
    (images.map (·.displayName)) options selection
  refine ⟨stats, d', r, hcompare, ?_, hreport, ?_⟩
  · rwa [List.forall₂_map_left_iff] at halone
  · have hne : ¬s.images.isEmpty = true := by
      intro h
      exact hsome (by rw [← himages, List.isEmpty_iff.1 h]; rfl)
    rw [comparisonSection, if_neg hne, hignore]
    refine (Pull.gives_ensureAll hw hreports hready _).bind ?_
    dsimp only
    rw [filter_contains, himages, if_neg (by simpa using hsome), List.map_map]
    have hgoesOn : Gives w (Disk.On d') giveUpIfCancelled (.ok ()) (Disk.On d') :=
      (gives_isCancelled hw d').bind (gives_pure w (Disk.On d') ())
    have hunchecked : Gives w (Disk.On d') (Steps.orFail (Analysis.checkStrict o.strict stats))
        (.ok ()) (Disk.On d') := by
      rw [hstrict]
      exact gives_pure w (Disk.On d') ()
    have hrender : Gives w (Disk.On d')
        (Steps.comparisonReport stats (images.map (·.displayName)) options selection) r
        (Disk.On d') :=
      fun m hm => ⟨m, hreport m (hm.files.trans hext.files), hm⟩
    refine (gives_note w d _ _).bind ?_
    refine hcompare.bind ?_
    refine hgoesOn.bind ?_
    refine hunchecked.bind ?_
    cases r with
    | error e => exact hrender.bind_error
    | ok text => exact hrender.bind (gives_pure w (Disk.On d') (some text))

end Columns

/-- Columns never shift. Let the world be steady and its commands write nothing but reports, let
failures be ignored, and let the mode not be strict. Then the images that can be prepared are found,
and a section that compares images comes to the same as the section with only those of its images
that are there. If there are none, nothing is printed. Otherwise the report is made of the names of
these images, in their order, and of the statistics that the comparison gives for them. These are
what an analysis of each image alone gives, and every name stands at the place of its statistics. -/
theorem comparison_columns {w : World} (hw : w.IsSteady) (hreports : w.WritesReportsOnly)
    {m : Machine} (hm : m.cancelled = false)
    (o : GenerateOptions) (hignore : o.ignoreErrors = true) (hstrict : o.strict = false)
    (c : Config) (index : Nat) (s : Config.Section) (selection : Selection)
    (options : ReportOptions) :
    ∃ ready m', (Pull.ensureAll c.timeouts.scan o.ignoreErrors (s.images.map (·.tag))).exec w m =
        (.ok ready, m') ∧
      let images := s.images.filter fun i => ready.contains i.tag
      let names := images.map (·.displayName)
      let probes := Analysis.standardProbes c.timeouts true
      let result := fun s => ((comparisonSection o c index s selection options).exec w m).1
      result s = result { s with images := images } ∧
      (images = [] → result s = .ok none) ∧
      (images ≠ [] → ∃ stats,
        ((Analysis.compare (images.map fun i => (i.tag, probes)) true).exec w m).1 = .ok stats ∧
        List.Forall₂ (fun i t => ∃ n, m.temporaries ≤ n ∧
          ((Analysis.analyze i.tag probes true none).exec w { m with temporaries := n }).1 = .ok t)
          images stats ∧
        Report.withNames names stats = names.zip stats ∧
        result s =
          ((Steps.comparisonReport stats names options selection).exec w m).1.map some) := by
  classical
  let d : Disk := ⟨m.files, m.temporaries⟩
  have hon : d.On m := ⟨rfl, rfl, hm⟩
  let isReady : String → Bool := fun tag => decide (Pull.IsReady w d c.timeouts.scan tag)
  have hready : ∀ tag, isReady tag = true ↔ Pull.IsReady w d c.timeouts.scan tag :=
    fun tag => decide_eq_true_iff
  obtain ⟨m', hensure, -⟩ := Pull.gives_ensureAll hw hreports hready (s.images.map (·.tag)) m hon
  rw [← hignore] at hensure
  refine ⟨_, m', hensure, ?_⟩
  intro images names probes result
  have himages : images = s.images.filter fun i => isReady i.tag := filter_contains s.images isReady
  have hagain : (images.filter fun i => isReady i.tag) = images := by
    rw [himages, List.filter_filter]
    simp only [Bool.and_self]
  by_cases hempty : images = []
  · have hself : result s = .ok none := Gives.fst_exec (gives_comparisonSection_of_none hw hreports
      hignore hready index selection options (himages.symm.trans hempty)) hon
    have hrest : result { s with images := images } = .ok none :=
      Gives.fst_exec (gives_comparisonSection_of_none hw hreports hignore hready index selection
        options (hagain.trans hempty)) hon
    exact ⟨hself.trans hrest.symm, fun _ => hself, fun hne => absurd hempty hne⟩
  · obtain ⟨stats, d', r, hcompare, halone, hreport, hsection⟩ := gives_comparisonSection hw
      hreports hignore hstrict hready index selection options himages.symm hempty
    obtain ⟨stats', d'', r', hcompare', -, hreport', hsection'⟩ := gives_comparisonSection hw
      hreports hignore hstrict hready index (s := { s with images := images }) selection options
      hagain hempty
    obtain rfl : stats = stats' := Except.ok.inj (hcompare.unique hcompare')
    obtain rfl : r = r' := congrArg Prod.fst ((hreport m rfl).symm.trans (hreport' m rfl))
    have hself : result s = r.map some := hsection.fst_exec hon
    have hrest : result { s with images := images } = r.map some := hsection'.fst_exec hon
    refine ⟨hself.trans hrest.symm, fun h => absurd h hempty, fun _ => ⟨stats,
      hcompare.fst_exec hon, ?_, ?_, ?_⟩⟩
    · refine halone.imp fun i t ht => ?_
      obtain ⟨⟨n, d₁, hn, hgives⟩, -⟩ := ht
      exact ⟨n, hn, hgives.fst_exec ⟨rfl, rfl, hm⟩⟩
    · exact Report.withNames_displayName (halone.imp fun i t ht => ht.2)
    · rw [hself, hreport m rfl]

/-- Of four images one is not there, and one has an empty label. -/
theorem comparison_columns_of_four :
    let here : List (List String) :=
      [["docker", "inspect", "--type=image", "a"], ["docker", "inspect", "--type=image", "c"]]
    let w : World := {
      respond := fun _ argv => if argv ∈ here then .runs {} else .fails (.missing "docker")
      find? := fun name => if name = "docker" then some "/bin/docker" else none
      environment := []
      directory := "/"
      now := fun _ => ⟨⟨2024, 1, 1⟩, 0, 0, 0, 0, none⟩ }
    let m : Machine := { files := ⟨[]⟩ }
    let o : GenerateOptions := { ignoreErrors := true }
    let images : List Config.Image := [.bare "a", .entry "c" (some ""), .entry "a" (some "A")]
    let names := ["a", "c", "A"]
    let s : Config.Section :=
      { images := [.bare "a", .entry "b" (some "B"), .entry "c" (some ""), .entry "a" (some "A")] }
    let result := fun s => ((comparisonSection o {} 0 s {} {}).exec w m).1
    w.IsSteady ∧ w.WritesReportsOnly ∧ m.cancelled = false ∧
    o.ignoreErrors = true ∧ o.strict = false ∧
    result s = result { s with images := images } ∧
    ∃ stats, Report.withNames names stats = names.zip stats ∧
      result s = ((Steps.comparisonReport stats names {} {}).exec w m).1.map some := by
  intro here w m o images names s result
  have hruns : ∀ before argv b, w.respond before argv = .runs b → b = {} := by
    intro before argv b h
    by_cases hmem : argv ∈ here
    · have hrespond : w.respond before argv = .runs {} := if_pos hmem
      exact (Launch.runs.inj (hrespond.symm.trans h)).symm
    · have hrespond : w.respond before argv = .fails (.missing "docker") := if_neg hmem
      cases hrespond.symm.trans h
  have hw : w.IsSteady := ⟨fun _ _ _ => rfl, fun _ _ => rfl,
    fun before argv b h => by rw [hruns before argv b h], rfl⟩
  have hreports : w.WritesReportsOnly := fun before argv b h => .inl (by rw [hruns before argv b h])
  obtain ⟨ready, m', hensure, hcolumns⟩ :=
    comparison_columns hw hreports (m := m) rfl o rfl rfl {} 0 s {} {}
  have hready : ((Pull.ensureAll (Binary64.ofInt 300) true (s.images.map (·.tag))).exec w
      m).1.toOption = some ["a", "c", "a"] := by decide +kernel
  obtain rfl : ready = ["a", "c", "a"] := by
    have hsame : (Pull.ensureAll (Binary64.ofInt 300) true (s.images.map (·.tag))).exec w m =
        (.ok ready, m') := hensure
    rw [hsame] at hready
    exact Option.some.inj hready
  have himages : (s.images.filter fun i => ["a", "c", "a"].contains i.tag) = images := by decide
  obtain ⟨hsame, -, hsome⟩ := hcolumns
  rw [himages] at hsame hsome
  obtain ⟨stats, -, -, hzip, hresult⟩ := hsome (by decide)
  exact ⟨hw, hreports, rfl, rfl, rfl, hsame, stats, hzip, hresult⟩

end Generate
end ContainerDocs

import ContainerDocs.Proofs.Traversal
import ContainerDocs.Report.Render

/-!
# When reports are printed

A report is printed if the size of every image in it can be printed and its template prints the
values of the report.

## Main statements

* `Report.exists_imageData`, `Report.exists_comparisonData` — there is data for images with sizes.
* `Report.image_eq`, `Report.comparison_eq` — a report is what its template prints.
-/

namespace ContainerDocs

/-- Statistics whose sizes can be printed. -/
structure ImageStats.HasSizes (a : ImageStats) : Prop where
  size : ∃ t, a.sizeText = .ok t
  wasted : ∃ t, a.wastedText = .ok t

namespace Report

variable {s : ImageStats}

theorem exists_statsData (h : ∃ t, s.sizeText = .ok t) : ∃ fields, statsData s = .ok fields := by
  obtain ⟨t, ht⟩ := h
  rw [statsData, ht]
  exact ⟨_, rfl⟩

theorem exists_imageData (items : List Item) {stats : Option ImageStats}
    (h : ∀ s ∈ stats, ∃ t, s.sizeText = .ok t) : ∃ data, imageData items stats = .ok data := by
  cases stats with
  | none => exact ⟨_, rfl⟩
  | some s =>
    obtain ⟨fields, hfields⟩ := exists_statsData (h s rfl)
    simp only [imageData, hfields]
    exact ⟨_, rfl⟩

/-- The data of a comparison is that of its images. -/
theorem exists_imageObject : ∃ f : String × ImageStats → Except Size.SizeError Json,
    (∀ p, f p = (statsData p.2).map fun fields =>
      Json.object (field "name" (.ofString p.1) :: fields)) ∧
    ∀ images, comparisonData images =
      (images.mapM f).map fun objects => .object [field "images" (.array objects)] := by
  refine ⟨_, fun p => ?_, fun images => rfl⟩
  obtain ⟨name, stats⟩ := p
  dsimp only
  cases statsData stats <;> rfl

theorem statsData_eq_error {e : Size.SizeError} (h : statsData s = .error e) :
    s.sizeText = .error e := by
  cases hsize : s.sizeText with
  | error e' =>
    have herror : statsData s = .error e' := by
      rw [statsData, hsize]
      rfl
    exact congrArg _ (Except.error.inj (herror.symm.trans h))
  | ok size =>
    rw [statsData, hsize] at h
    cases h

section ComparisonData

variable {images : List (String × ImageStats)}

theorem exists_comparisonData (h : ∀ p ∈ images, ∃ t, p.2.sizeText = .ok t) :
    ∃ data, comparisonData images = .ok data := by
  obtain ⟨f, hf, hdata⟩ := exists_imageObject
  obtain ⟨objects, hmapM⟩ : ∃ objects, images.mapM f = .ok objects := by
    refine Traversal.exists_mapM fun p hp => ?_
    obtain ⟨fields, hfields⟩ := exists_statsData (h p hp)
    rw [hf, hfields]
    exact ⟨_, rfl⟩
  rw [hdata, hmapM]
  exact ⟨_, rfl⟩

/-- There is no data for an image whose size cannot be printed. -/
theorem exists_of_comparisonData_error {e : Size.SizeError}
    (h : comparisonData images = .error e) : ∃ p ∈ images, p.2.sizeText = .error e := by
  obtain ⟨f, hf, hdata⟩ := exists_imageObject
  rw [hdata] at h
  cases hmapM : images.mapM f with
  | ok objects =>
    rw [hmapM] at h
    cases h
  | error e' =>
    rw [hmapM] at h
    cases h
    obtain ⟨p, hp, herror⟩ := Traversal.exists_of_mapM_error hmapM
    rw [hf] at herror
    cases hstats : statsData p.2 with
    | ok fields =>
      rw [hstats] at herror
      cases herror
    | error e' =>
      rw [hstats] at herror
      cases herror
      exact ⟨p, hp, statsData_eq_error hstats⟩

/-- The size of every image that there is data for can be printed. -/
theorem sizes_of_comparisonData {data : Json} (h : comparisonData images = .ok data) :
    ∀ p ∈ images, ∃ t, p.2.sizeText = .ok t := by
  obtain ⟨f, hf, hdata⟩ := exists_imageObject
  rw [hdata] at h
  cases hmapM : images.mapM f with
  | error e =>
    rw [hmapM] at h
    cases h
  | ok objects =>
    intro p hp
    obtain ⟨object, hobject⟩ := Traversal.exists_of_mem_of_mapM hmapM p hp
    cases hsize : p.2.sizeText with
    | ok size => exact ⟨size, rfl⟩
    | error e =>
      rw [hf, statsData, hsize] at hobject
      cases hobject

end ComparisonData

section Print

variable {t : Template} {format : ReportFormat} {options : ReportOptions} {data : Json}
  {text : Text}

theorem image_eq {d : Documentation} {stats : Option ImageStats}
    (hdata : imageData d.items stats = .ok data)
    (h : t.render (format == .html) (imageValues d stats options data) = .ok text) :
    image t format d stats options = .ok text := by
  rw [image, imageValues?, hdata]
  change print t format (imageValues d stats options data) = _
  rw [print, h]

theorem comparison_eq {images : List ImageStats} {labels : List String}
    (hdata : comparisonData (withNames labels images) = .ok data)
    (h : t.render (format == .html) (comparisonValues (withNames labels images) options data) =
      .ok text) :
    comparison t format images labels options = .ok text := by
  simp only [comparison, hdata]
  rw [print, h]

theorem builtinTemplate_eq {name : String} {b : Builtin} {kind : ReportKind}
    (hb : Builtin.find? name = some b) (h : Template.ofSegments? (b.segments kind) = some t) :
    builtinTemplate name kind = .ok t := by
  simp only [builtinTemplate, hb, h]

end Print

/-! ### Names of images -/

theorem length_withNames (labels : List String) (images : List ImageStats) :
    (withNames labels images).length = images.length := by
  induction images generalizing labels with
  | nil => rfl
  | cons s rest ih => simp [withNames, ih]

theorem map_snd_withNames (labels : List String) (images : List ImageStats) :
    (withNames labels images).map (·.2) = images := by
  induction images generalizing labels with
  | nil => rfl
  | cons s rest ih => simp [withNames, ih]

theorem of_mem_withNames {labels : List String} {images : List ImageStats}
    {p : String × ImageStats} (h : p ∈ withNames labels images) : p.2 ∈ images := by
  induction images generalizing labels with
  | nil => cases h
  | cons s rest ih =>
    obtain rfl | h := List.mem_cons.1 h
    · exact List.mem_cons_self
    · exact List.mem_cons_of_mem _ (ih h)

end Report
end ContainerDocs

import ContainerDocs.Proofs.Image.Batches
import Mathlib.Algebra.BigOperators.Group.List.Basic

/-!
# Merged collections

What a run of merges leaves in a field, told from the partial results alone. The lists are those of
the partial results one after another, the counts are sums, and every other field is the last value
that is not empty. So the order of the partial results shows in the order of vulnerabilities that
rank alike, in the order of the warnings and in values that two results know.

## Main definitions

* `ImageStats.mergeAll` — the statistics of an image with partial results folded in.
* `ImageStats.lastKnown` — the last value that is not empty.
* `ImageStats.KnowsLast` — each value is the last one that a partial result knows.

## Main statements

* `ImageStats.foldl_merge_field` — a field that is merged on its own is folded on its own.
* `ImageStats.mergeAll_append`, `ImageStats.mergeAll_platforms`, `ImageStats.mergeAll_count`,
  `ImageStats.mergeAll_knowsLast` — what is left in the fields.
* `ImageStats.merge_any_order` — merged collections depend only on what was merged.
-/

namespace ContainerDocs
namespace ImageStats

variable {ps qs : List ImageStats}

/-! ## Fields of a run of merges -/

/-- The statistics of an image with partial results folded in, one after another. -/
def mergeAll (image : String) (ps : List ImageStats) : ImageStats :=
  ps.foldl merge { imageTag := image }

/-- A field that is merged without a look at the others is folded without a look at them. -/
theorem foldl_merge_field {β : Type} (field : ImageStats → β) (op : β → β → β)
    (hop : ∀ p ∈ ps, ∀ d, field (d.merge p) = op (field d) (field p)) (d : ImageStats) :
    field (ps.foldl merge d) = (ps.map field).foldl op (field d) := by
  induction ps generalizing d with
  | nil => rfl
  | cons p ps ih =>
    rw [List.foldl_cons, ih fun q hq => hop q (List.mem_cons_of_mem p hq),
      hop p List.mem_cons_self, List.map_cons, List.foldl_cons]

theorem mergeAll_imageTag (image : String) (ps : List ImageStats) :
    (mergeAll image ps).imageTag = image := by
  rw [mergeAll, foldl_merge_field imageTag (fun old _ => old) fun _ _ _ => rfl, List.foldl_fixed]

/-- A field whose lists are appended holds the lists of all results, one after another. -/
theorem mergeAll_append {β : Type} (field : ImageStats → List β) (image : String)
    (hop : ∀ d p, field (merge d p) = field d ++ field p)
    (hstart : field { imageTag := image } = []) (ps : List ImageStats) :
    field (mergeAll image ps) = ps.flatMap field := by
  rw [mergeAll, foldl_merge_field field (· ++ ·) fun p _ d => hop d p, hstart, List.foldl_map,
    ← List.flatMap_eq_foldl]

/-! ## Platforms -/

theorem unite_distinct (old new : List Text) :
    unite (Ordered.distinct Text.le old) new = Ordered.distinct Text.le (old ++ new) := by
  rw [unite]
  split_ifs with h
  · rw [List.isEmpty_iff.1 h, List.append_nil]
  · exact Ordered.distinct_congr Text.ranksBy (by simp)

theorem foldl_unite (news : List (List Text)) (old : List Text) :
    news.foldl unite (Ordered.distinct Text.le old) =
      Ordered.distinct Text.le (old ++ news.flatten) := by
  induction news generalizing old with
  | nil => simp
  | cons new news ih =>
    rw [List.foldl_cons, unite_distinct, ih, List.flatten_cons, List.append_assoc]

/-- The supported platforms are those of all results, each one once and in increasing order. -/
theorem mergeAll_platforms (image : String) (ps : List ImageStats) :
    (mergeAll image ps).platforms = Ordered.distinct Text.le (ps.flatMap (·.platforms)) := by
  have hstart : ([] : List Text) = Ordered.distinct Text.le [] :=
    (List.eq_nil_iff_forall_not_mem.2 fun t => by simp).symm
  rw [mergeAll, foldl_merge_field platforms unite fun p _ d => merge_platforms d p, hstart,
    foldl_unite, List.nil_append, List.flatMap]

theorem pairwise_mergeAll_platforms (image : String) (ps : List ImageStats) :
    (mergeAll image ps).platforms.Pairwise fun a b => a.codes < b.codes := by
  rw [mergeAll_platforms]
  exact (Ordered.pairwise_distinct Text.ranksBy.trans Text.ranksBy.total Text.ranksBy.key_eq _).imp
    Text.lt_iff_codes.1

theorem mem_mergeAll_platforms {image : String} {platform : Text} :
    platform ∈ (mergeAll image ps).platforms ↔ ∃ p ∈ ps, platform ∈ p.platforms := by
  rw [mergeAll_platforms, Ordered.mem_distinct, List.mem_flatMap]

/-! ## Counts -/

/-- A severity is counted as often as in all results together. -/
theorem mergeAll_count (image : String) (ps : List ImageStats) (severity : Text) :
    (mergeAll image ps).vulnerabilityCount severity =
      (ps.map (·.vulnerabilityCount severity)).sum := by
  rw [mergeAll, foldl_merge_field (vulnerabilityCount · severity) (· + ·)
    fun p _ d => Counts.get_addAll _ _ severity, List.sum_eq_foldl]
  rfl

/-! ## Values that replace others -/

def lastKnown {α : Type} (isEmpty : α → Bool) (start : α) (values : List α) : α :=
  (values.filter (!isEmpty ·)).getLastD start

theorem foldl_orKeep {α : Type} (isEmpty : α → Bool) (start : α) (values : List α) :
    values.foldl (fun old new => orKeep isEmpty new old) start =
      lastKnown isEmpty start values := by
  induction values generalizing start with
  | nil => rfl
  | cons value values ih =>
    rw [List.foldl_cons, ih, orKeep, lastKnown, lastKnown]
    by_cases h : isEmpty value = true
    · rw [if_pos h, List.filter_cons_of_neg (by simp [h])]
    · rw [if_neg h, List.filter_cons_of_pos (by simp [h]), List.getLastD_cons]

/-- Each value is the last one that a partial result knows, or the default if none knows any. -/
structure KnowsLast (s : ImageStats) (ps : List ImageStats) : Prop where
  architecture : s.architecture = lastKnown List.isEmpty [] (ps.map (·.architecture))
  os : s.os = lastKnown List.isEmpty [] (ps.map (·.os))
  distribution : s.distribution = lastKnown List.isEmpty [] (ps.map (·.distribution))
  sizeBytes : s.sizeBytes = lastKnown (· == 0) 0 (ps.map (·.sizeBytes))
  layers : s.layers = lastKnown (· == 0) 0 (ps.map (·.layers))
  efficiency : s.efficiency =
    lastKnown Binary64.isZero (Binary64.zero false) (ps.map (·.efficiency))
  wastedBytes : s.wastedBytes = lastKnown (· == 0) 0 (ps.map (·.wastedBytes))
  packageCount : s.packageCount = lastKnown (· == 0) 0 (ps.map (·.packageCount))
  scanned : s.scanned = lastKnown Option.isNone none (ps.map (·.scanned))

theorem mergeAll_knowsLast (image : String) (ps : List ImageStats) :
    KnowsLast (mergeAll image ps).finalize ps := by
  have hfield : ∀ {α : Type} (field : ImageStats → α) (isEmpty : α → Bool),
      (∀ d s, field (merge d s) = orKeep isEmpty (field s) (field d)) →
      field (mergeAll image ps) =
        lastKnown isEmpty (field { imageTag := image }) (ps.map field) := by
    intro α field isEmpty hop
    rw [mergeAll, foldl_merge_field field (fun old new => orKeep isEmpty new old)
      fun p _ d => hop d p, foldl_orKeep]
  exact ⟨hfield architecture _ fun _ _ => rfl, hfield os _ fun _ _ => rfl,
    hfield distribution _ fun _ _ => rfl, hfield sizeBytes _ fun _ _ => rfl,
    hfield layers _ fun _ _ => rfl, hfield efficiency _ fun _ _ => rfl,
    hfield wastedBytes _ fun _ _ => rfl, hfield packageCount _ fun _ _ => rfl,
    hfield scanned _ fun _ _ => rfl⟩

/-! ## Any order -/

/-- Merged collections depend only on what was merged, and each value on the last one known. -/
theorem merge_any_order (image : String) (hperm : ps.Perm qs) :
    let s := (mergeAll image ps).finalize
    let t := (mergeAll image qs).finalize
    s.packages = t.packages ∧ s.platforms = t.platforms ∧
    (∀ n, (mergeAll image (ps.take n)).platforms.Pairwise (fun a b => a.codes < b.codes) ∧
      ∀ platform, platform ∈ (mergeAll image (ps.take n)).platforms ↔
        ∃ p ∈ ps.take n, platform ∈ p.platforms) ∧
    (∀ severity, s.vulnerabilityCount severity = t.vulnerabilityCount severity ∧
      s.vulnerabilityCount severity = (ps.map (·.vulnerabilityCount severity)).sum) ∧
    s.vulnerabilities.Perm t.vulnerabilities ∧
    s.vulnerabilities.map Vulnerability.key = t.vulnerabilities.map Vulnerability.key ∧
    s.warnings.Perm t.warnings ∧ s.imageTag = image ∧ t.imageTag = image ∧
    KnowsLast s ps ∧ KnowsLast t qs := by
  have hpackages : ∀ ps, (mergeAll image ps).packages = ps.flatMap (·.packages) :=
    mergeAll_append packages image (fun _ _ => rfl) rfl
  have hvulnerabilities : ∀ ps, (mergeAll image ps).vulnerabilities =
      ps.flatMap (·.vulnerabilities) :=
    mergeAll_append vulnerabilities image (fun _ _ => rfl) rfl
  have hwarnings : ∀ ps, (mergeAll image ps).warnings = ps.flatMap (·.warnings) :=
    mergeAll_append warnings image (fun _ _ => rfl) rfl
  have hlists : (mergeAll image ps).vulnerabilities.Perm (mergeAll image qs).vulnerabilities := by
    rw [hvulnerabilities, hvulnerabilities]
    exact hperm.flatMap_right _
  have hcount := mergeAll_count image ps
  have hcount' := mergeAll_count image qs
  refine ⟨?_, ?_, fun n => ⟨pairwise_mergeAll_platforms _ _, fun _ => mem_mergeAll_platforms⟩,
    fun severity => ⟨?_, hcount severity⟩, ?_, Vulnerability.ranksBy.map_mergeSort hlists, ?_,
    mergeAll_imageTag _ _, mergeAll_imageTag _ _, mergeAll_knowsLast _ _, mergeAll_knowsLast _ _⟩
  · refine Ordered.distinct_congr Package.ranksBy fun p => ?_
    rw [hpackages, hpackages]
    exact (hperm.flatMap_right _).mem_iff
  · change (mergeAll image ps).platforms = (mergeAll image qs).platforms
    rw [mergeAll_platforms, mergeAll_platforms]
    exact Ordered.distinct_congr Text.ranksBy fun _ => (hperm.flatMap_right _).mem_iff
  · exact (hcount severity).trans (((hperm.map _).sum_eq).trans (hcount' severity).symm)
  · exact ((Vulnerability.sorted_perm _).trans hlists).trans (Vulnerability.sorted_perm _).symm
  · change (mergeAll image ps).warnings.Perm (mergeAll image qs).warnings
    rw [hwarnings, hwarnings]
    exact hperm.flatMap_right _

/-- Two results that both know the architecture, a platform and the number of severe findings. -/
theorem merge_any_order_of_two :
    let first : ImageStats :=
      { architecture := Text.ofString "arm64", platforms := [Text.ofString "linux/arm64"],
        severityCounts := Counts.add (.ofList [Text.ofString "High", Text.ofString "High"])
          (Text.ofString "Low") 0 }
    let second : ImageStats :=
      { architecture := Text.ofString "amd64", platforms := [Text.ofString "linux/amd64"],
        severityCounts := .ofList [Text.ofString "High"] }
    let s := (mergeAll "app" [first, second]).finalize
    let t := (mergeAll "app" [second, first]).finalize
    [first, second].Perm [second, first] ∧
    s.platforms = t.platforms ∧ s.vulnerabilityCount (Text.ofString "High") = 3 ∧
    s.architecture = Text.ofString "amd64" ∧ t.architecture = Text.ofString "arm64" := by
  intro first second s t
  have hperm : [first, second].Perm [second, first] := .swap _ _ _
  obtain ⟨-, hplatforms, -, hcount, -, -, -, -, -, hlast, hlast'⟩ :=
    merge_any_order "app" hperm
  exact ⟨hperm, hplatforms, (hcount _).2.trans (by decide), hlast.architecture,
    hlast'.architecture⟩

end ImageStats
end ContainerDocs

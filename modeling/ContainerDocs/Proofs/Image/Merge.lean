import ContainerDocs.Image.Stats
import Mathlib.Data.List.Basic

/-!
# Merging image statistics

Two partial results can be merged in either order if no field is known to both: a value never
replaces another one, and no list is put together from two parts. Warnings are the exception, they
are listed in the order in which they come.

## Main definitions

* `ImageStats.Field` — the fields that a partial result may know.
* `ImageStats.Apart` — two results that know no field in common.
* `ImageStats.SameFindings` — the same statistics up to the order of the warnings.

## Main statements

* `ImageStats.merge_right_comm` — results that are apart can be merged in either order.
* `ImageStats.SameFindings.finalize` — the definite order does not look at warnings.
-/

namespace ContainerDocs
namespace ImageStats

/-! ## Fields -/

/-- The fields of image statistics that partial results contribute to. -/
inductive Field where
  | architecture | os | distribution | sizeBytes | layers | platforms | efficiency | wastedBytes
  | packageCount | packages | vulnerabilities | severityCounts | scanned
deriving DecidableEq, Repr

def lacks (s : ImageStats) : Field → Bool
  | .architecture => s.architecture.isEmpty
  | .os => s.os.isEmpty
  | .distribution => s.distribution.isEmpty
  | .sizeBytes => s.sizeBytes == 0
  | .layers => s.layers == 0
  | .platforms => s.platforms.isEmpty
  | .efficiency => s.efficiency.isZero
  | .wastedBytes => s.wastedBytes == 0
  | .packageCount => s.packageCount == 0
  | .packages => s.packages.isEmpty
  | .vulnerabilities => s.vulnerabilities.isEmpty
  | .severityCounts => s.severityCounts.entries.isEmpty
  | .scanned => s.scanned.isNone

/-- Two results are apart if each field is unknown to one of them. -/
def Apart (s t : ImageStats) : Prop := ∀ f, s.lacks f = true ∨ t.lacks f = true

theorem Apart.symm {s t : ImageStats} (h : Apart s t) : Apart t s := fun f => (h f).symm

/-! ## Merging -/

theorem orKeep_right_comm {α : Type} {isEmpty : α → Bool} {a b : α}
    (h : isEmpty a = true ∨ isEmpty b = true) (c : α) :
    orKeep isEmpty b (orKeep isEmpty a c) = orKeep isEmpty a (orKeep isEmpty b c) := by
  grind [orKeep]

theorem append_right_comm {α : Type} {as bs : List α}
    (h : as.isEmpty = true ∨ bs.isEmpty = true) (cs : List α) :
    cs ++ as ++ bs = cs ++ bs ++ as := by
  rcases h with h | h <;> simp [List.isEmpty_iff.1 h]

def withoutWarnings (s : ImageStats) : ImageStats := { s with warnings := [] }

@[simp] theorem merge_warnings (d s : ImageStats) :
    (d.merge s).warnings = d.warnings ++ s.warnings := rfl

/-- Results that are apart can be merged in either order, up to the order of their warnings. -/
theorem merge_right_comm {s t : ImageStats} (h : Apart s t) (d : ImageStats) :
    ((d.merge s).merge t).withoutWarnings = ((d.merge t).merge s).withoutWarnings := by
  have hplatforms : ((d.merge s).merge t).platforms = ((d.merge t).merge s).platforms := by
    rcases h .platforms with hp | hp <;>
    · rw [lacks] at hp
      simp [merge, hp]
  have hcounts : ((d.merge s).merge t).severityCounts = ((d.merge t).merge s).severityCounts := by
    rcases h .severityCounts with hc | hc <;>
    · rw [lacks, List.isEmpty_iff] at hc
      simp [merge, Counts.addAll, Counts.addEach, hc]
  have hnumber : ∀ {a b : Int}, (a == 0) = true ∨ (b == 0) = true → ∀ c,
      orKeep (· == 0) b (orKeep (· == 0) a c) = orKeep (· == 0) a (orKeep (· == 0) b c) :=
    fun h => orKeep_right_comm h
  rw [withoutWarnings, withoutWarnings, mk.injEq]
  exact ⟨rfl, orKeep_right_comm (h .architecture) _, orKeep_right_comm (h .os) _,
    orKeep_right_comm (h .distribution) _, hnumber (h .sizeBytes) _, hnumber (h .layers) _,
    hplatforms, orKeep_right_comm (h .efficiency) _, hnumber (h .wastedBytes) _,
    hnumber (h .packageCount) _, append_right_comm (h .packages) _,
    append_right_comm (h .vulnerabilities) _, hcounts, orKeep_right_comm (h .scanned) _, rfl⟩

/-! ## The same findings -/

structure SameFindings (s t : ImageStats) : Prop where
  fields : s.withoutWarnings = t.withoutWarnings
  warnings : s.warnings.Perm t.warnings

theorem SameFindings.finalize {s t : ImageStats} (h : SameFindings s t) :
    SameFindings s.finalize t.finalize :=
  ⟨congrArg ImageStats.finalize h.fields, h.warnings⟩

end ImageStats
end ContainerDocs

import ContainerDocs.Proofs.Image.Counts
import ContainerDocs.Proofs.Image.Merge
import ContainerDocs.Proofs.Image.Sorted

/-!
# Merging in batches

Merging is associative in every field at once, and nothing is left behind by an empty result. So it
does not matter how partial results are put together on their way into the statistics.

## Main definitions

* `ImageStats.Batch` — partial results with the way in which they are put together.

## Main statements

* `Counts.addAll_addAll` — adding counts is associative, the order of the keys included.
* `ImageStats.merge_assoc` — merging is associative.
* `ImageStats.merge_in_batches` — a batch is worth its results, merged one by one.
-/

namespace ContainerDocs

/-! ## Adding counts -/

namespace Counts

variable {counts : Counts} {entries : List (Text × Int)} {key : Text}

theorem addTo_addTo (entries : List (Text × Int)) (key : Text) (m n : Int) :
    addTo key n (addTo key m entries) = addTo key (m + n) entries := by
  induction entries with
  | nil => simp [addTo]
  | cons entry rest ih => grind [addTo]

/-- What is added to a key that is listed already may as well be added earlier. -/
theorem addTo_addTo_comm (hmem : key ∈ entries.map (·.1)) (k : Text) (m n : Int) :
    addTo key n (addTo k m entries) = addTo k m (addTo key n entries) := by
  induction entries with
  | nil => cases hmem
  | cons entry rest ih => grind [addTo]

theorem ext_entries {counts more : Counts} (h : counts.entries = more.entries) : counts = more := by
  cases counts
  cases more
  cases h
  rfl

theorem add_add (counts : Counts) (key : Text) (m n : Int) :
    (counts.add key m).add key n = counts.add key (m + n) :=
  ext_entries (addTo_addTo counts.entries key m n)

theorem add_add_comm (hmem : key ∈ counts.keys) (k : Text) (m n : Int) :
    (counts.add k m).add key n = (counts.add key n).add k m :=
  ext_entries (addTo_addTo_comm hmem k m n)

theorem addEach_add_of_mem (hmem : key ∈ counts.keys) (entries : List (Text × Int)) (n : Int) :
    (counts.add key n).addEach entries = (counts.addEach entries).add key n := by
  induction entries generalizing counts with
  | nil => rfl
  | cons entry entries ih =>
    rw [addEach_cons, addEach_cons, ← add_add_comm hmem, ih (mem_keys_add.2 (.inr hmem))]

/-- A count more among those that are added is a count more in the end. -/
theorem addEach_addTo (counts : Counts) (entries : List (Text × Int)) (key : Text) (n : Int) :
    counts.addEach (addTo key n entries) = (counts.addEach entries).add key n := by
  induction entries generalizing counts with
  | nil => rfl
  | cons entry entries ih =>
    obtain ⟨k, m⟩ := entry
    rw [addTo]
    split_ifs with hk
    · subst hk
      have hmem : k ∈ (counts.add k m).keys := mem_keys_add.2 (.inl rfl)
      rw [addEach_cons, addEach_cons, ← add_add, addEach_add_of_mem hmem]
    · rw [addEach_cons, addEach_cons, ih]

/-- Adding counts is associative, the order of the keys included. -/
theorem addAll_addAll (counts more last : Counts) :
    (counts.addAll more).addAll last = counts.addAll (more.addAll last) := by
  have heach : ∀ (entries : List (Text × Int)) (more : Counts),
      (counts.addAll more).addEach entries = counts.addAll (more.addEach entries) := by
    intro entries
    induction entries with
    | nil => exact fun _ => rfl
    | cons entry entries ih =>
      intro more
      have hadd : (counts.addAll more).add entry.1 entry.2 =
          counts.addAll (more.add entry.1 entry.2) :=
        (addEach_addTo counts more.entries entry.1 entry.2).symm
      rw [addEach_cons, addEach_cons, ← ih, hadd]
  exact heach last.entries more

end Counts

namespace ImageStats

/-! ## Fields of a merge -/

/-- The platforms with new ones, if there are any. -/
def unite (old new : List Text) : List Text :=
  if new.isEmpty then old else Ordered.distinct Text.le (old ++ new)

theorem merge_platforms (d s : ImageStats) :
    (d.merge s).platforms = unite d.platforms s.platforms := rfl

theorem merge_severityCounts (d s : ImageStats) :
    (d.merge s).severityCounts = d.severityCounts.addAll s.severityCounts := rfl

theorem orKeep_assoc {α : Type} (isEmpty : α → Bool) (a b c : α) :
    orKeep isEmpty c (orKeep isEmpty b a) = orKeep isEmpty (orKeep isEmpty c b) a := by
  grind [orKeep]

/-- There are platforms in a union if there are any on one of its sides. -/
theorem unite_isEmpty (old new : List Text) :
    (unite old new).isEmpty = (old.isEmpty && new.isEmpty) := by
  cases new with
  | nil => simp [unite]
  | cons t new =>
    have hmem : t ∈ Ordered.distinct Text.le (old ++ t :: new) := by simp
    simpa [unite] using List.ne_nil_of_mem hmem

theorem unite_assoc (a b c : List Text) : unite (unite a b) c = unite a (unite b c) := by
  by_cases hc : c.isEmpty = true
  · simp [unite, hc]
  have hright : unite a (unite b c) = Ordered.distinct Text.le (a ++ unite b c) := by
    rw [unite, unite_isEmpty, if_neg (by simp [hc])]
  rw [hright, unite, if_neg hc]
  -- Both sides are the distinct elements of lists with the same elements.
  refine Ordered.distinct_congr Text.ranksBy fun t => ?_
  by_cases hb : b.isEmpty = true
  · simp [unite, hc, List.isEmpty_iff.1 hb]
  · simp [unite, hb, hc, or_assoc]

/-! ## Associativity -/

/-- Merging is associative. -/
theorem merge_assoc (d a b : ImageStats) : (d.merge a).merge b = d.merge (a.merge b) := by
  have hplatforms : ((d.merge a).merge b).platforms = (d.merge (a.merge b)).platforms := by
    simp only [merge_platforms, unite_assoc]
  have hcounts : ((d.merge a).merge b).severityCounts = (d.merge (a.merge b)).severityCounts := by
    simp only [merge_severityCounts, Counts.addAll_addAll]
  rw [merge, merge.eq_1 d, mk.injEq]
  exact ⟨rfl, orKeep_assoc _ _ _ _, orKeep_assoc _ _ _ _, orKeep_assoc _ _ _ _,
    orKeep_assoc _ _ _ _, orKeep_assoc _ _ _ _, hplatforms, orKeep_assoc _ _ _ _,
    orKeep_assoc _ _ _ _, orKeep_assoc _ _ _ _, List.append_assoc _ _ _, List.append_assoc _ _ _,
    hcounts, orKeep_assoc _ _ _ _, List.append_assoc _ _ _⟩

/-- An empty result changes nothing. -/
@[simp] theorem merge_empty (d : ImageStats) : d.merge {} = d := by
  have hefficiency : (Binary64.zero false).isZero = true := by decide
  cases d
  simp [merge, orKeep, hefficiency]

/-! ## Batches -/

/-- Partial results with the way in which they are put together. -/
inductive Batch where
  | single (result : ImageStats)
  /-- The second batch is merged into the first one. -/
  | merged (dest src : Batch)
  /-- A tool had nothing to say. -/
  | unchanged (dest : Batch)

namespace Batch

def value : Batch → ImageStats
  | single result => result
  | merged dest src => dest.value.merge src.value
  | unchanged dest => dest.value.mergeOption none

def results : Batch → List ImageStats
  | single result => [result]
  | merged dest src => dest.results ++ src.results
  | unchanged dest => dest.results

/-- To merge a batch is to merge its results. -/
theorem merge_value (batch : Batch) (d : ImageStats) :
    d.merge batch.value = batch.results.foldl merge d := by
  induction batch generalizing d with
  | single result => rfl
  | merged dest src hdest hsrc =>
    rw [value, results, List.foldl_append, ← hdest, ← hsrc, merge_assoc]
  | unchanged dest hdest => exact hdest d

/-- A batch is worth its first result with the others merged into it. -/
theorem exists_value (batch : Batch) :
    ∃ first rest, batch.results = first :: rest ∧ batch.value = rest.foldl merge first := by
  induction batch with
  | single result => exact ⟨result, [], rfl, rfl⟩
  | merged dest src hdest hsrc =>
    obtain ⟨first, rest, hresults, hvalue⟩ := hdest
    refine ⟨first, rest ++ src.results, by rw [results, hresults, List.cons_append], ?_⟩
    rw [value, hvalue, merge_value, List.foldl_append]
  | unchanged dest hdest => exact hdest

end Batch

/-- Merging in batches is the same as merging one by one, in every field. -/
theorem merge_in_batches (d a b : ImageStats) :
    (d.merge a).merge b = d.merge (a.merge b) ∧ d.merge {} = d ∧ d.mergeOption none = d ∧
      ∀ batch : Batch, d.merge batch.value = batch.results.foldl merge d ∧
        ∃ first rest, batch.results = first :: rest ∧ batch.value = rest.foldl merge first :=
  ⟨merge_assoc d a b, merge_empty d, rfl, fun batch => ⟨batch.merge_value d, batch.exists_value⟩⟩

end ImageStats
end ContainerDocs

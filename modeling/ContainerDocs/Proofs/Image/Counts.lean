import ContainerDocs.Image.Stats
import Mathlib.Algebra.BigOperators.Ring.Finset
import Mathlib.Data.Int.Cast.Lemmas

/-!
# Counts of severities

The counts of image statistics are kept apart from the list of vulnerabilities: they are made once
for the report of a tool and added up from then on. They agree with the list all the same.

## Main definitions

* `ImageStats.CountsAgree` — the counts are those of the listed vulnerabilities.

## Main statements

* `Counts.get_add`, `Counts.get_addAll`, `Counts.get_ofList` — what is counted.
* `ImageStats.CountsAgree.merge`, `ImageStats.CountsAgree.finalize` — agreement is kept.
* `ImageStats.CountsAgree.sum` — the counts add up to the number of vulnerabilities.
-/

namespace ContainerDocs

/-! ## Counting -/

namespace Counts

variable {counts : Counts} {entries : List (Text × Int)} {key : Text}

/-! ### Entries -/

theorem countIn_cons (k : Text) (n : Int) (rest : List (Text × Int)) (key : Text) :
    countIn ((k, n) :: rest) key = if k = key then n else countIn rest key := by
  by_cases h : k = key <;> simp [countIn, h]

theorem countIn_of_not_mem (h : key ∉ entries.map (·.1)) : countIn entries key = 0 := by
  induction entries with
  | nil => rfl
  | cons entry rest ih =>
    obtain ⟨k, n⟩ := entry
    rw [List.map_cons, List.mem_cons, not_or] at h
    rw [countIn_cons, if_neg (Ne.symm h.1), ih h.2]

theorem countIn_addTo (k : Text) (n : Int) (entries : List (Text × Int)) (key : Text) :
    countIn (addTo k n entries) key = countIn entries key + if k = key then n else 0 := by
  induction entries with
  | nil => exact (countIn_cons k n [] key).trans (zero_add _).symm
  | cons entry rest ih =>
    obtain ⟨k', n'⟩ := entry
    rw [addTo]
    by_cases hk : k' = k
    · rw [if_pos hk, countIn_cons, countIn_cons, hk]
      split_ifs <;> simp
    · rw [if_neg hk, countIn_cons, countIn_cons, ih]
      split_ifs with h h'
      · exact absurd (h.trans h'.symm) hk
      all_goals simp

theorem map_countIn (h : (entries.map (·.1)).Nodup) :
    (entries.map (·.1)).map (countIn entries) = entries.map (·.2) := by
  rw [List.map_map]
  refine List.map_congr_left fun entry hentry => ?_
  induction entries with
  | nil => cases hentry
  | cons first rest ih =>
    obtain ⟨k, n⟩ := first
    obtain ⟨hnew, hrest⟩ := List.nodup_cons.1 h
    rw [Function.comp_apply, countIn_cons]
    rcases List.mem_cons.1 hentry with rfl | hmem
    · rw [if_pos rfl]
    · have hmem' : entry.1 ∈ rest.map (·.1) := List.mem_map_of_mem hmem
      have hne : k ≠ entry.1 := fun hk => hnew (hk ▸ hmem')
      rw [if_neg hne]
      exact ih hrest hmem

/-! ### Counts -/

theorem get_of_not_mem (h : key ∉ counts.keys) : counts.get key = 0 := countIn_of_not_mem h

@[simp] theorem get_add (counts : Counts) (k : Text) (n : Int) (key : Text) :
    (counts.add k n).get key = counts.get key + if k = key then n else 0 :=
  countIn_addTo k n counts.entries key

theorem mem_keys_add {k : Text} {n : Int} :
    key ∈ (counts.add k n).keys ↔ key = k ∨ key ∈ counts.keys := mem_keys_addTo

theorem map_get_keys (counts : Counts) :
    counts.keys.map counts.get = counts.entries.map (·.2) := map_countIn counts.nodup

@[simp] theorem addEach_nil (counts : Counts) : counts.addEach [] = counts := rfl

theorem addEach_cons (counts : Counts) (entry : Text × Int) (entries : List (Text × Int)) :
    counts.addEach (entry :: entries) = (counts.add entry.1 entry.2).addEach entries := rfl

theorem get_addEach (h : (entries.map (·.1)).Nodup) (counts : Counts) (key : Text) :
    (counts.addEach entries).get key = counts.get key + countIn entries key := by
  induction entries generalizing counts with
  | nil => exact (add_zero _).symm
  | cons entry entries ih =>
    obtain ⟨k, n⟩ := entry
    obtain ⟨hnew, hentries⟩ := List.nodup_cons.1 h
    rw [addEach_cons, ih hentries, get_add, countIn_cons]
    split_ifs with hk
    · subst hk
      rw [countIn_of_not_mem hnew, add_zero]
    · rw [add_zero]

/-- The counts with those of others added. -/
theorem get_addAll (counts more : Counts) (key : Text) :
    (counts.addAll more).get key = counts.get key + more.get key :=
  get_addEach more.nodup counts key

/-- What is counted in a list is the number of occurrences. -/
theorem get_ofList (ks : List Text) (key : Text) : (ofList ks).get key = ks.count key := by
  have hadd : ∀ counts : Counts,
      (counts.addEach (ks.map (·, 1))).get key = counts.get key + ks.count key := by
    induction ks with
    | nil => simp
    | cons k ks ih =>
      intro counts
      rw [List.map_cons, addEach_cons, ih, get_add, List.count_cons]
      by_cases hk : k = key
      · simp [hk]
        omega
      · simp [hk]
  exact (hadd {}).trans (zero_add _)

end Counts

/-! ## Agreement with the list -/

namespace ImageStats

/-- The counts are those of the listed vulnerabilities, for every severity whatever. -/
def CountsAgree (s : ImageStats) : Prop := ∀ severity,
  s.vulnerabilityCount severity = s.vulnerabilities.countP (·.severity = severity)

theorem CountsAgree.start (image : String) : CountsAgree { imageTag := image } := fun _ => rfl

theorem CountsAgree.merge {dest src : ImageStats} (hdest : dest.CountsAgree)
    (hsrc : src.CountsAgree) : (dest.merge src).CountsAgree := by
  intro severity
  have hcount : (dest.merge src).vulnerabilityCount severity =
      dest.vulnerabilityCount severity + src.vulnerabilityCount severity :=
    Counts.get_addAll _ _ severity
  have hlist : (dest.merge src).vulnerabilities =
      dest.vulnerabilities ++ src.vulnerabilities := rfl
  rw [hcount, hdest, hsrc, hlist, List.countP_append, Nat.cast_add]

theorem CountsAgree.finalize {s : ImageStats} (h : s.CountsAgree) : s.finalize.CountsAgree := by
  intro severity
  have hperm : s.finalize.vulnerabilities.Perm s.vulnerabilities := List.mergeSort_perm _ _
  rw [hperm.countP_eq]
  exact h severity

/-- The counts of all severities add up to the number of vulnerabilities. -/
theorem CountsAgree.sum {s : ImageStats} (h : s.CountsAgree) :
    (s.severityCounts.entries.map (·.2)).sum = s.vulnerabilities.length := by
  let severities : Multiset Text := (s.vulnerabilities : Multiset Vulnerability).map (·.severity)
  have hget : ∀ k, s.severityCounts.get k = severities.count k := by
    intro k
    refine (h k).trans ?_
    rw [Multiset.count_map, ← Multiset.countP_eq_card_filter, Multiset.coe_countP]
    exact congrArg Nat.cast (List.countP_congr fun v _ => by simp [eq_comm])
  have hcovered : ∀ k ∈ severities, k ∈ s.severityCounts.keys.toFinset := by
    intro k hk
    rw [List.mem_toFinset]
    by_contra hnot
    have hzero := (hget k).symm.trans (Counts.get_of_not_mem hnot)
    exact absurd (Multiset.count_pos.2 hk) (by omega)
  calc (s.severityCounts.entries.map (·.2)).sum
    _ = (s.severityCounts.keys.map (s.severityCounts.get)).sum := by
        rw [Counts.map_get_keys]
    _ = (s.severityCounts.keys.map fun k => (severities.count k : Int)).sum := by
        rw [List.map_congr_left fun k _ => hget k]
    _ = ∑ k ∈ s.severityCounts.keys.toFinset, (severities.count k : Int) :=
        (List.sum_toFinset _ s.severityCounts.nodup).symm
    _ = (Multiset.card severities : Int) := by
        rw [← Multiset.sum_count_eq_card hcovered, Nat.cast_sum]
    _ = s.vulnerabilities.length := by simp [severities]

end ImageStats
end ContainerDocs

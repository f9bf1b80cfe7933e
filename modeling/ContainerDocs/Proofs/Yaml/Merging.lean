import ContainerDocs.Proofs.Yaml.Cells
import Mathlib.Algebra.BigOperators.Group.Finset.Basic
import Mathlib.Algebra.Order.BigOperators.Group.Finset

/-!
# What merging does to the cells of a document

Merging takes the merge keys out of a mapping. It changes nothing else than mappings and the tags
of keys, and the entries that a merge key stands for go into the mapping that lost it, or into the
one whose merge keys led there.

## Main definitions

* `Cells.Evolves` — what later cells still have of earlier ones.
* `Cells.FlatWith` — a mapping without merge keys whose entries have a property.
* `Cells.Saves` — where the entries of merged mappings are.

## Main statements

* `Cells.Evolves.trans`, `Cells.Saves.trans` — one change after another.
* `Merging.flattens_flatten` — a mapping whose merge keys have been taken out.
-/

namespace ContainerDocs.Yaml

namespace Cells

variable {cells cells' cells'' : Cells} {i j v : Nat} {e : Nat × Nat} {S S' : Nat × Nat → Prop}

/-! ## Entries -/

theorem entries_of_content {es : Entries} (h : (cells.cell i).content = .mapping es) :
    cells.entries i = es := by rw [entries, h]

theorem isMapping_iff : cells.isMapping i = true ↔ ∃ es, (cells.cell i).content = .mapping es := by
  rw [isMapping]
  cases (cells.cell i).content <;> simp

theorem lt_size_of_isMapping (h : cells.isMapping i = true) : i < cells.size := by
  by_contra hlt
  rw [isMapping, cell_of_le (Nat.not_lt.1 hlt)] at h
  cases h

theorem isMapping_of_mem (h : e ∈ cells.entries i) : cells.isMapping i = true := by
  rw [entries] at h
  rw [isMapping]
  split at h
  · rfl
  · cases h

theorem content_of_isMapping (h : cells.isMapping i = true) :
    (cells.cell i).content = .mapping (cells.entries i) := by
  obtain ⟨es, hes⟩ := isMapping_iff.1 h
  rw [hes, entries_of_content hes]

theorem mem_parts (h : e ∈ cells.entries i) :
    e.1 ∈ (cells.cell i).content.parts ∧ e.2 ∈ (cells.cell i).content.parts := by
  rw [content_of_isMapping (isMapping_of_mem h)]
  exact ⟨Content.mem_parts_mapping.2 ⟨e, h, .inl rfl⟩, Content.mem_parts_mapping.2 ⟨e, h, .inr rfl⟩⟩

theorem content_refill_self (h : i < cells.size) (content : Content) :
    ((cells.refill i content).cell i).content = content := by
  rw [cell_refill_self h]

theorem entries_refill_self (h : i < cells.size) (es : Entries) :
    (cells.refill i (.mapping es)).entries i = es :=
  entries_of_content (content_refill_self h _)

theorem entries_refill_of_ne (h : i ≠ j) (content : Content) :
    (cells.refill i content).entries j = cells.entries j := by
  rw [entries, cell_refill_of_ne h, entries]

def IsFlat (cells : Cells) (i : Nat) : Prop := ∀ e ∈ cells.entries i, cells.hasKey .merge e = false

def mergeCount (cells : Cells) (i : Nat) : Nat := (cells.entries i).countP (cells.hasKey .merge)

def merges (cells : Cells) : Nat := ∑ i ∈ Finset.range cells.size, cells.mergeCount i

def targets (cells : Cells) (v : Nat) : List Nat :=
  match (cells.cell v).content with
  | .sequence items => items
  | _ => [v]

theorem mergeCount_eq_zero_iff : cells.mergeCount i = 0 ↔ cells.IsFlat i := by
  simp only [mergeCount, List.countP_eq_zero, Bool.not_eq_true, IsFlat]

theorem merges_pos (h : e ∈ cells.entries i) (hkey : cells.hasKey .merge e = true) :
    0 < cells.merges := by
  refine Finset.sum_pos' (fun _ _ => Nat.zero_le _) ⟨i, ?_, List.countP_pos_iff.2 ⟨e, h, hkey⟩⟩
  exact Finset.mem_range.2 (lt_size_of_isMapping (isMapping_of_mem h))

/-! ## Changes -/

/-- What later cells still have of earlier ones: the nodes that are no mappings, the entries without
merge keys, and the mappings without merge keys. No entry is new, and there are not more merge
keys. The tag of a default value can have become that of a text. -/
structure Evolves (cells cells' : Cells) : Prop where
  size_eq : cells'.size = cells.size
  tag : ∀ j, (cells'.cell j).tag = (cells.cell j).tag ∨
    (cells.cell j).tag = .default ∧ (cells'.cell j).tag = .text
  content : ∀ j, cells.isMapping j = false → (cells'.cell j).content = (cells.cell j).content
  isMapping : ∀ j, cells'.isMapping j = cells.isMapping j
  mem_entries : ∀ j, ∀ e ∈ cells.entries j, cells.hasKey .merge e = false → e ∈ cells'.entries j
  origin : ∀ j, ∀ e ∈ cells'.entries j, ∃ k, e ∈ cells.entries k
  entries_eq : ∀ j, cells.IsFlat j → cells'.entries j = cells.entries j
  mergeCount_le : ∀ j, cells'.mergeCount j ≤ cells.mergeCount j

structure FlatWith (cells : Cells) (S : Nat × Nat → Prop) (i : Nat) : Prop where
  isMapping : cells.isMapping i = true
  isFlat : cells.IsFlat i
  entries : ∀ e ∈ cells.entries i, S e

/-- Where a merge key has been taken out, the entries that it stands for have a property. -/
def Saves (S : Nat × Nat → Prop) (cells cells' : Cells) : Prop :=
  ∀ i, ∀ e ∈ cells.entries i, cells.hasKey .merge e = true → e ∉ cells'.entries i →
    ∀ y ∈ cells.targets e.2, cells'.FlatWith S y

theorem FlatWith.mono (h : cells.FlatWith S i) (hS : ∀ e, S e → S' e) : cells.FlatWith S' i :=
  ⟨h.isMapping, h.isFlat, fun e he => hS e (h.entries e he)⟩

theorem Saves.mono (h : Saves S cells cells') (hS : ∀ e, S e → S' e) : Saves S' cells cells' :=
  fun i e he hkey hgone y hy => (h i e he hkey hgone y hy).mono hS

/-- Merge keys stay merge keys, and no other keys become ones. -/
theorem merge_iff_of_tag (h : (cells'.cell j).tag = (cells.cell j).tag ∨
    (cells.cell j).tag = .default ∧ (cells'.cell j).tag = .text) :
    (cells'.cell j).tag = .merge ↔ (cells.cell j).tag = .merge := by
  rcases h with heq | ⟨hdefault, htext⟩
  · rw [heq]
  · rw [hdefault, htext]
    exact ⟨nofun, nofun⟩

namespace Evolves

theorem refl (cells : Cells) : Evolves cells cells where
  size_eq := rfl
  tag _ := .inl rfl
  content _ _ := rfl
  isMapping _ := rfl
  mem_entries _ _ he _ := he
  origin j _ he := ⟨j, he⟩
  entries_eq _ _ := rfl
  mergeCount_le _ := Nat.le_refl _

variable (h : Evolves cells cells')
include h

theorem tag_eq_merge_iff : (cells'.cell j).tag = .merge ↔ (cells.cell j).tag = .merge :=
  merge_iff_of_tag (h.tag j)

theorem hasKey_merge : cells'.hasKey .merge e = cells.hasKey .merge e :=
  decide_eq_decide.2 h.tag_eq_merge_iff

theorem isFlat (hflat : cells.IsFlat j) : cells'.IsFlat j := by
  intro e he
  rw [h.entries_eq j hflat] at he
  exact h.hasKey_merge.trans (hflat e he)

theorem flatWith (hflat : cells.FlatWith S j) : cells'.FlatWith S j where
  isMapping := (h.isMapping j).trans hflat.isMapping
  isFlat := h.isFlat hflat.isFlat
  entries := h.entries_eq j hflat.isFlat ▸ hflat.entries

theorem merges_le : cells'.merges ≤ cells.merges := by
  rw [merges, merges, h.size_eq]
  exact Finset.sum_le_sum fun j _ => h.mergeCount_le j

theorem targets_eq : cells'.targets v = cells.targets v := by
  cases hmapping : cells.isMapping v with
  | false => rw [targets, targets, h.content v hmapping]
  | true =>
    obtain ⟨es, hes⟩ := isMapping_iff.1 hmapping
    obtain ⟨es', hes'⟩ := isMapping_iff.1 ((h.isMapping v).trans hmapping)
    rw [targets, targets, hes, hes']

theorem trans (h' : Evolves cells' cells'') : Evolves cells cells'' where
  size_eq := h'.size_eq.trans h.size_eq
  tag j := by
    rcases h'.tag j with heq | ⟨hdefault, htext⟩
    · rw [heq]
      exact h.tag j
    · rcases h.tag j with heq | ⟨-, htext'⟩
      · exact .inr ⟨heq.symm.trans hdefault, htext⟩
      · rw [htext'] at hdefault
        cases hdefault
  content j hj := (h'.content j ((h.isMapping j).trans hj)).trans (h.content j hj)
  isMapping j := (h'.isMapping j).trans (h.isMapping j)
  mem_entries j e he hkey :=
    h'.mem_entries j e (h.mem_entries j e he hkey) (h.hasKey_merge.trans hkey)
  origin j e he := by
    obtain ⟨k, hk⟩ := h'.origin j e he
    exact h.origin k e hk
  entries_eq j hj := (h'.entries_eq j (h.isFlat hj)).trans (h.entries_eq j hj)
  mergeCount_le j := Nat.le_trans (h'.mergeCount_le j) (h.mergeCount_le j)

/-- A mapping with other entries, which the earlier mapping had, or the ones merged into it. -/
theorem refill {es : Entries} (hi : cells.isMapping i = true)
    (hmem : ∀ e ∈ cells.entries i, cells.hasKey .merge e = false → e ∈ es)
    (horigin : ∀ e ∈ es, ∃ k, e ∈ cells.entries k)
    (hflat : cells.IsFlat i → es = cells.entries i)
    (hcount : es.countP (cells.hasKey .merge) ≤ cells.mergeCount i) :
    Evolves cells (cells'.refill i (.mapping es)) := by
  have hlt : i < cells'.size := h.size_eq ▸ lt_size_of_isMapping hi
  have hself := entries_refill_self hlt es
  have hkey : (cells'.refill i (.mapping es)).hasKey .merge = cells.hasKey .merge := by
    funext e
    rw [← h.hasKey_merge, hasKey, hasKey, tag_refill]
  refine ⟨by rw [size_refill, h.size_eq], fun j => by rw [tag_refill]; exact h.tag j,
    fun j hj => ?_, fun j => ?_, fun j => ?_, fun j => ?_, fun j hj => ?_, fun j => ?_⟩
  · have hne : i ≠ j := by
      rintro rfl
      rw [hi] at hj
      cases hj
    rw [cell_refill_of_ne hne, h.content j hj]
  · by_cases heq : i = j
    · subst heq
      exact (isMapping_iff.2 ⟨es, content_refill_self hlt _⟩).trans hi.symm
    · rw [← h.isMapping j, Cells.isMapping, cell_refill_of_ne heq, Cells.isMapping]
  · by_cases heq : i = j
    · subst heq
      rwa [hself]
    · rw [entries_refill_of_ne heq]
      exact h.mem_entries j
  · by_cases heq : i = j
    · subst heq
      rwa [hself]
    · rw [entries_refill_of_ne heq]
      exact h.origin j
  · by_cases heq : i = j
    · subst heq
      rw [hself, hflat hj]
    · rw [entries_refill_of_ne heq, h.entries_eq j hj]
  · rw [mergeCount, hkey]
    by_cases heq : i = j
    · subst heq
      rwa [hself]
    · rw [entries_refill_of_ne heq]
      refine Nat.le_trans (Nat.le_of_eq ?_) (h.mergeCount_le j)
      exact congrArg (List.countP · _) (funext fun e => h.hasKey_merge.symm)

end Evolves

theorem Saves.refl (S : Nat × Nat → Prop) (cells : Cells) : Saves S cells cells :=
  fun _ _ he _ hgone => absurd he hgone

theorem Saves.trans (h : Saves S cells cells') (h' : Saves S cells' cells'')
    (hevolves : Evolves cells cells') (hevolves' : Evolves cells' cells'') :
    Saves S cells cells'' := by
  intro i e he hkey hgone y hy
  by_cases hmem : e ∈ cells'.entries i
  · rw [← hevolves.targets_eq] at hy
    exact h' i e hmem (hevolves.hasKey_merge.trans hkey) hgone y hy
  · exact hevolves'.flatWith (h i e he hkey hmem y hy)

end Cells

namespace Merging

open Cells

variable {cells cells' cells'' : Cells} {i : Nat} {ys ys' : List Nat} {front front' : Entries}

/-! ## One merge key -/

/-- An entry with a merge key has been taken out of a mapping, and nothing else. -/
structure Taken (i : Nat) (e : Nat × Nat) (cells cells' : Cells) : Prop where
  evolves : Evolves cells cells'
  mem : e ∈ cells.entries i
  hasKey : cells.hasKey .merge e = true
  mergeCount_lt : cells'.mergeCount i < cells.mergeCount i
  eq_of_not_mem : ∀ j, ∀ d ∈ cells.entries j, d ∉ cells'.entries j → d = e

theorem Taken.merges_lt {e : Nat × Nat} (h : Taken i e cells cells') :
    cells'.merges < cells.merges := by
  rw [merges, merges, h.evolves.size_eq]
  refine Finset.sum_lt_sum (fun j _ => h.evolves.mergeCount_le j) ⟨i, ?_, h.mergeCount_lt⟩
  exact Finset.mem_range.2 (lt_size_of_isMapping (isMapping_of_mem h.mem))

theorem taken_refill {e : Nat × Nat} {before after : Entries} (hkey : cells.hasKey .merge e = true)
    (hentries : cells.entries i = before ++ e :: after) :
    Taken i e cells (cells.refill i (.mapping (before ++ after))) := by
  have hmem : e ∈ cells.entries i := hentries ▸ List.mem_append_right before List.mem_cons_self
  have hi := isMapping_of_mem hmem
  have hcount : (before ++ after).countP (cells.hasKey .merge) + 1 = cells.mergeCount i := by
    rw [mergeCount, hentries, List.countP_append, List.countP_append,
      List.countP_cons_of_pos hkey, Nat.add_assoc]
  have hpart : ∀ d ∈ cells.entries i, d ∈ before ++ after ∨ d = e := by
    intro d hd
    rw [hentries] at hd
    simp only [List.mem_append, List.mem_cons] at hd ⊢
    tauto
  have hsub : ∀ d ∈ before ++ after, d ∈ cells.entries i := by
    intro d hd
    rw [hentries]
    simp only [List.mem_append, List.mem_cons] at hd ⊢
    tauto
  have hevolves : Evolves cells (cells.refill i (.mapping (before ++ after))) := by
    refine (Evolves.refl cells).refill hi (fun d hd hplain => ?_) (fun d hd => ⟨i, hsub d hd⟩)
      (fun hflat => ?_) (by omega)
    · refine (hpart d hd).resolve_right ?_
      rintro rfl
      rw [hkey] at hplain
      cases hplain
    · rw [hflat e hmem] at hkey
      cases hkey
  have hself := entries_refill_self (lt_size_of_isMapping hi) (before ++ after)
  refine ⟨hevolves, hmem, hkey, ?_, fun j d hd hgone => ?_⟩
  · rw [mergeCount, hself, ← hcount]
    refine Nat.lt_succ_of_le (Nat.le_of_eq ?_)
    exact congrArg (List.countP · _) (funext fun d => hevolves.hasKey_merge)
  · by_cases heq : i = j
    · subst heq
      rw [hself] at hgone
      exact (hpart d hd).resolve_left hgone
    · rw [entries_refill_of_ne heq] at hgone
      exact absurd hd hgone

/-- A mapping has no merge key, or one of them is taken out. -/
theorem takeMerge_cases (cells : Cells) (i : Nat) :
    cells.IsFlat i ∧ (takeMerge i).run cells = .ok (none, cells) ∨
      ∃ e cells', (takeMerge i).run cells = .ok (some e.2, cells') ∧ Taken i e cells cells' := by
  cases hfind : (cells.entries i).find? (cells.hasKey .merge) with
  | none =>
    refine .inl ⟨fun e he => Bool.eq_false_iff.2 (List.find?_eq_none.1 hfind e he), ?_⟩
    rw [takeMerge, StateT.run_bind, StateT.run_get]
    simp only [pure_bind, hfind]
    rfl
  | some e =>
    obtain ⟨hkey, before, after, hentries, hbefore⟩ := List.find?_eq_some_iff_append.1 hfind
    have herase : (cells.entries i).eraseP (cells.hasKey .merge) = before ++ after := by
      rw [hentries, List.eraseP_append_right _ (by simpa using hbefore),
        List.eraseP_cons_of_pos hkey]
    refine .inr ⟨e, _, ?_, taken_refill hkey hentries⟩
    rw [takeMerge, StateT.run_bind, StateT.run_get]
    simp only [pure_bind, hfind, herase]
    rfl

/-! ## Merged mappings -/

/-- What is known when mappings have been flattened and their entries are in front of others. -/
structure Merged (ys : List Nat) (front : Entries) (cells cells' : Cells) : Prop where
  evolves : Evolves cells cells'
  saves : Saves (· ∈ front) cells cells'
  flatWith : ∀ y ∈ ys, cells'.FlatWith (· ∈ front) y
  plain : ∀ e ∈ front, cells'.hasKey .merge e = false
  origin : ∀ e ∈ front, ∃ k, e ∈ cells.entries k

theorem Merged.nil (cells : Cells) : Merged [] [] cells cells where
  evolves := .refl cells
  saves := .refl _ cells
  flatWith := by simp
  plain := by simp
  origin := by simp

theorem Merged.append (h : Merged ys front cells cells') (h' : Merged ys' front' cells' cells'') :
    Merged (ys ++ ys') (front ++ front') cells cells'' where
  evolves := h.evolves.trans h'.evolves
  saves := (h.saves.mono fun _ => List.mem_append_left front').trans
    (h'.saves.mono fun _ => List.mem_append_right front) h.evolves h'.evolves
  flatWith := List.forall_mem_append.2
    ⟨fun y hy => (h'.evolves.flatWith (h.flatWith y hy)).mono fun _ => List.mem_append_left front',
      fun y hy => (h'.flatWith y hy).mono fun _ => List.mem_append_right front⟩
  plain := List.forall_mem_append.2
    ⟨fun e he => h'.evolves.hasKey_merge.trans (h.plain e he), h'.plain⟩
  origin := by
    refine List.forall_mem_append.2 ⟨h.origin, fun e he => ?_⟩
    obtain ⟨k, hk⟩ := h'.origin e he
    exact h.evolves.origin k e hk

/-- The order of the entries does not matter. -/
theorem Merged.congr (h : Merged ys front cells cells') (hmem : ∀ e, e ∈ front' ↔ e ∈ front) :
    Merged ys front' cells cells' where
  evolves := h.evolves
  saves := h.saves.mono fun e => (hmem e).2
  flatWith y hy := (h.flatWith y hy).mono fun e => (hmem e).2
  plain e he := h.plain e ((hmem e).1 he)
  origin e he := h.origin e ((hmem e).1 he)

/-- The mappings that a merge key stands for are merged after it has been taken out. -/
theorem Taken.merged {e : Nat × Nat} (h : Taken i e cells cells')
    (h' : Merged (cells'.targets e.2) front cells' cells'') : Merged [] front cells cells'' where
  evolves := h.evolves.trans h'.evolves
  saves := by
    intro j d hd hkey hgone y hy
    rw [← h.evolves.targets_eq] at hy
    by_cases hmem : d ∈ cells'.entries j
    · exact h'.saves j d hmem (h.evolves.hasKey_merge.trans hkey) hgone y hy
    · rw [h.eq_of_not_mem j d hd hmem] at hy
      exact h'.flatWith y hy
  flatWith := by simp
  plain := h'.plain
  origin e he := by
    obtain ⟨k, hk⟩ := h'.origin e he
    exact h.evolves.origin k e hk

/-- What is known when a mapping has been flattened. -/
structure Flattened (i : Nat) (cells cells' : Cells) : Prop where
  evolves : Evolves cells cells'
  isFlat : cells'.IsFlat i
  saves : Saves (· ∈ cells'.entries i) cells cells'

/-- A step that flattens mappings. It refuses what is no mapping, and it goes too deep only if there
are as many merge keys as it has room for. Without merge keys it does not fail. -/
def Flattens (room : Nat) (flatten : Nat → Merging Unit) : Prop :=
  ∀ i cells, cells.isMapping i = true →
    Gives (fun f => f.IsProblem ∧ 0 < cells.merges ∨ f = .tooDeep ∧ room ≤ cells.merges)
      (fun p => Flattened i cells p.2) ((flatten i).run cells)

section Steps

variable {room : Nat} {flatten : Nat → Merging Unit} (h : Flattens room flatten)
include h

theorem gives_flatEntries (y : Nat) (cells : Cells) :
    Gives (fun f => f.IsProblem ∨ f = .tooDeep ∧ room ≤ cells.merges)
      (fun p => Merged [y] p.1 cells p.2) ((flatEntries flatten y).run cells) := by
  rw [flatEntries, StateT.run_bind, StateT.run_get]
  simp only [pure_bind]
  by_cases hy : cells.isMapping y = true
  · rw [if_pos hy, StateT.run_bind]
    refine Gives.bind ((h y cells hy).mono (fun _ => Or.imp_left And.left) fun _ => id) ?_
    rintro ⟨-, cells'⟩ (hflat : Flattened y cells cells')
    have hmapping := (hflat.evolves.isMapping y).trans hy
    refine ⟨hflat.evolves, hflat.saves, ?_, hflat.isFlat, hflat.evolves.origin y⟩
    exact List.forall_mem_singleton.2 ⟨hmapping, hflat.isFlat, fun _ => id⟩
  · rw [if_neg hy]
    exact .inl ⟨_, rfl⟩

theorem gives_mapM_flatEntries (items : List Nat) (cells : Cells) :
    Gives (fun f => f.IsProblem ∨ f = .tooDeep ∧ room ≤ cells.merges)
      (fun p => Merged items p.1.flatten cells p.2)
      ((items.mapM (flatEntries flatten)).run cells) := by
  induction items generalizing cells with
  | nil => exact .nil cells
  | cons y items ih =>
    rw [List.mapM_cons, StateT.run_bind]
    refine (gives_flatEntries h y cells).bind fun p hp => ?_
    rw [StateT.run_bind]
    have hdeep := hp.evolves.merges_le
    refine ((ih p.2).mono (fun f => ?_) fun _ => id).bind fun q hq => hp.append hq
    exact Or.imp_right (And.imp_right (Nat.le_trans · hdeep))

theorem gives_merged (v : Nat) (cells : Cells) :
    Gives (fun f => f.IsProblem ∨ f = .tooDeep ∧ room ≤ cells.merges)
      (fun p => Merged (cells.targets v) p.1 cells p.2) ((merged flatten v).run cells) := by
  rw [merged, StateT.run_bind, StateT.run_get, targets]
  simp only [pure_bind]
  cases (cells.cell v).content with
  | sequence items =>
    refine Gives.bind (gives_mapM_flatEntries h items cells) fun p hp => ?_
    exact hp.congr fun e => by simp
  | scalar t => exact gives_flatEntries h v cells
  | mapping es => exact gives_flatEntries h v cells

/-- The merge keys of a mapping are taken out, one after the other. -/
theorem gives_allMerged (i rounds : Nat) (cells : Cells) (hrounds : cells.mergeCount i ≤ rounds) :
    Gives (fun f => f.IsProblem ∧ 0 < cells.merges ∨ f = .tooDeep ∧ room < cells.merges)
      (fun p => Merged [] p.1 cells p.2 ∧ p.2.IsFlat i ∧ (cells.IsFlat i → p.1 = []))
      ((allMerged flatten i rounds).run cells) := by
  induction rounds generalizing cells with
  | zero =>
    exact ⟨.nil cells, mergeCount_eq_zero_iff.1 (Nat.le_zero.1 hrounds), fun _ => rfl⟩
  | succ rounds ih =>
    rw [allMerged, StateT.run_bind]
    obtain ⟨hflat, hrun⟩ | ⟨e, cells₁, hrun, htaken⟩ := takeMerge_cases cells i
    · rw [hrun]
      exact ⟨.nil cells, hflat, fun _ => rfl⟩
    rw [hrun]
    change Gives _ _ ((do
      return (← merged flatten e.2) ++ (← allMerged flatten i rounds) : Merging Entries).run cells₁)
    rw [StateT.run_bind]
    have hpos := merges_pos htaken.mem htaken.hasKey
    have hless := htaken.merges_lt
    have hcount := htaken.mergeCount_lt
    have hnot : ¬cells.IsFlat i := by
      intro hflat
      have := mergeCount_eq_zero_iff.2 hflat
      omega
    refine Gives.bind (Gives.mono (gives_merged h e.2 cells₁) ?_ fun _ => id) fun p hp => ?_
    · rintro f (hproblem | ⟨hdeep, hroom⟩)
      · exact .inl ⟨hproblem, hpos⟩
      · exact .inr ⟨hdeep, by omega⟩
    have hfront := htaken.merged hp
    have hle := hp.evolves.mergeCount_le i
    have hmerges := hfront.evolves.merges_le
    rw [StateT.run_bind]
    refine Gives.bind (Gives.mono (ih p.2 (by omega)) ?_ fun _ => id) fun q hq => ?_
    · rintro f (⟨hproblem, -⟩ | ⟨hdeep, hroom⟩)
      · exact .inl ⟨hproblem, hpos⟩
      · exact .inr ⟨hdeep, by omega⟩
    exact ⟨hfront.append hq.1, hq.2.1, fun hflat => absurd hflat hnot⟩

end Steps

/-! ## Flattened mappings -/

theorem size_settleKey (cells : Cells) (e : Nat × Nat) : (settleKey cells e).size = cells.size := by
  rw [settleKey]
  split_ifs
  · exact Array.size_modify
  · rfl

theorem cell_settleKey (cells : Cells) (e : Nat × Nat) (j : Nat) :
    (settleKey cells e).cell j = cells.cell j ∨ (cells.cell j).tag = .default ∧
      (settleKey cells e).cell j = ⟨.text, (cells.cell j).content⟩ := by
  rw [settleKey]
  by_cases hkey : cells.hasKey .default e = true
  · rw [if_pos hkey]
    have hdefault : (cells.cell e.1).tag = .default := of_decide_eq_true hkey
    by_cases hj : e.1 = j
    · subst hj
      have hlt : e.1 < cells.size := by
        by_contra hle
        rw [cell_of_le (Nat.not_lt.1 hle)] at hdefault
        cases hdefault
      refine .inr ⟨hdefault, ?_⟩
      rw [cell, cell, Array.getD_eq_getD_getElem?, Array.getD_eq_getD_getElem?,
        Array.getElem?_modify, if_pos rfl, Array.getElem?_eq_getElem hlt]
      rfl
    · rw [cell, cell, Array.getD_eq_getD_getElem?, Array.getD_eq_getD_getElem?,
        Array.getElem?_modify, if_neg hj]
      exact .inl rfl
  · rw [if_neg hkey]
    exact .inl rfl

theorem content_settleKey (cells : Cells) (e : Nat × Nat) (j : Nat) :
    ((settleKey cells e).cell j).content = (cells.cell j).content := by
  rcases cell_settleKey cells e j with heq | ⟨-, heq⟩ <;> rw [heq]

theorem entries_settleKey (cells : Cells) (e : Nat × Nat) (j : Nat) :
    (settleKey cells e).entries j = cells.entries j := by
  rw [Cells.entries, content_settleKey, Cells.entries]

theorem evolves_settleKey (cells : Cells) (e : Nat × Nat) : Evolves cells (settleKey cells e) := by
  have hentries := entries_settleKey cells e
  have htag : ∀ j, ((settleKey cells e).cell j).tag = (cells.cell j).tag ∨
      (cells.cell j).tag = .default ∧ ((settleKey cells e).cell j).tag = .text := by
    intro j
    rcases cell_settleKey cells e j with heq | ⟨hdefault, heq⟩
    · exact .inl (by rw [heq])
    · exact .inr ⟨hdefault, by rw [heq]⟩
  refine ⟨size_settleKey cells e, htag, fun j _ => content_settleKey cells e j, fun j => ?_,
    fun j d hd _ => (hentries j).symm ▸ hd, fun j d hd => ⟨j, hentries j ▸ hd⟩,
    fun j _ => hentries j, fun j => ?_⟩
  · rw [isMapping, content_settleKey, isMapping]
  · rw [mergeCount, hentries, mergeCount]
    refine Nat.le_of_eq (List.countP_congr fun d _ => ?_)
    rw [hasKey, hasKey, decide_eq_decide.2 (merge_iff_of_tag (htag d.1))]

theorem evolves_foldl_settleKey (es : Entries) (cells : Cells) :
    Evolves cells (es.foldl settleKey cells) ∧
      ∀ j, (es.foldl settleKey cells).entries j = cells.entries j := by
  induction es generalizing cells with
  | nil => exact ⟨.refl cells, fun _ => rfl⟩
  | cons e es ih =>
    obtain ⟨hevolves, hentries⟩ := ih (settleKey cells e)
    exact ⟨(evolves_settleKey cells e).trans hevolves,
      fun j => (hentries j).trans (entries_settleKey cells e j)⟩

/-- The entries of a mapping whose merge keys have been taken out stand behind the merged ones. -/
theorem Merged.flattened (h : Merged [] front cells cells') (hflat : cells'.IsFlat i)
    (hevolves : Evolves cells cells'') (hself : cells''.entries i = front ++ cells'.entries i)
    (hother : ∀ j, j ≠ i → cells''.entries j = cells'.entries j) : Flattened i cells cells'' := by
  have hkey : ∀ e, cells''.hasKey .merge e = cells'.hasKey .merge e :=
    fun e => hevolves.hasKey_merge.trans h.evolves.hasKey_merge.symm
  have hplain : cells''.IsFlat i := by
    rw [IsFlat, hself]
    exact List.forall_mem_append.2
      ⟨fun e he => (hkey e).trans (h.plain e he), fun e he => (hkey e).trans (hflat e he)⟩
  refine ⟨hevolves, hplain, fun j e he hmerge hgone y hy => ?_⟩
  have hlost : e ∉ cells'.entries j := by
    by_cases heq : j = i
    · subst heq
      rw [hself] at hgone
      exact fun hmem => hgone (List.mem_append_right front hmem)
    · rwa [hother j heq] at hgone
  have hwith := h.saves j e he hmerge hlost y hy
  have hmapping : cells''.isMapping y = true :=
    (hevolves.isMapping y).trans ((h.evolves.isMapping y).symm.trans hwith.isMapping)
  by_cases heq : y = i
  · subst heq
    exact ⟨hmapping, hplain, fun _ => id⟩
  · refine ⟨hmapping, fun d hd => ?_, fun d hd => ?_⟩
    · rw [hother y heq] at hd
      exact (hkey d).trans (hwith.isFlat d hd)
    · rw [hother y heq] at hd
      exact hself ▸ List.mem_append_left _ (hwith.entries d hd)

/-- The merged entries and the own ones are put into a mapping. -/
theorem Merged.refill {settled : Cells} (h : Merged [] front cells cells')
    (hi : cells.isMapping i = true) (hflat : cells'.IsFlat i) (hnil : cells.IsFlat i → front = [])
    (hsettled : Evolves cells' settled) (hentries : ∀ j, settled.entries j = cells'.entries j) :
    Flattened i cells (settled.refill i (.mapping (front ++ cells'.entries i))) := by
  have hlt : i < settled.size := by
    rw [hsettled.size_eq, h.evolves.size_eq]
    exact lt_size_of_isMapping hi
  have hevolves : Evolves cells (settled.refill i (.mapping (front ++ cells'.entries i))) := by
    refine (h.evolves.trans hsettled).refill hi (fun e he hkey => ?_) ?_ (fun hi => ?_) ?_
    · exact List.mem_append_right front (h.evolves.mem_entries i e he hkey)
    · exact List.forall_mem_append.2 ⟨h.origin, h.evolves.origin i⟩
    · rw [hnil hi, List.nil_append, h.evolves.entries_eq i hi]
    · refine Nat.le_trans (Nat.le_of_eq ?_) (Nat.zero_le _)
      refine List.countP_eq_zero.2 fun e he => Bool.eq_false_iff.1 ?_
      refine h.evolves.hasKey_merge.symm.trans ?_
      exact (List.mem_append.1 he).elim (h.plain e) (hflat e)
  refine h.flattened hflat hevolves (entries_refill_self hlt _) fun j hj => ?_
  rw [entries_refill_of_ne (Ne.symm hj), hentries]

/-- Merging takes all merge keys out of a mapping. -/
theorem flattens_flatten (room : Nat) : Flattens room (flatten room) := by
  induction room with
  | zero => exact fun i cells hi => .inr ⟨rfl, Nat.zero_le _⟩
  | succ room ih =>
    intro i cells hi
    rw [flatten, StateT.run_bind, StateT.run_get]
    simp only [pure_bind]
    rw [StateT.run_bind]
    refine Gives.bind (gives_allMerged ih i _ cells List.countP_le_length) fun p hp => ?_
    obtain ⟨hmerged, hflat, hnil⟩ := hp
    obtain ⟨hsettled, hentries⟩ := evolves_foldl_settleKey (p.2.entries i) p.2
    exact hmerged.refill hi hflat hnil hsettled hentries

end Merging
end ContainerDocs.Yaml

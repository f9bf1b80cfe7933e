import ContainerDocs.Proofs.Yaml.Nodes
import ContainerDocs.Yaml.Graph

/-!
# What the cells of a document hold

The cells of a document hold the scalars and the collections of its nodes and nothing else. Every
cell but the first one is a part of a cell in front of it, and no cell has parts that are not there.

## Main definitions

* `Content.parts` — the numbers that a cell holds.
* `Node.Stored` — what is known of the cells that nodes have been put into.

## Main statements

* `Node.stored_store` — a node put into cells.
* `Node.cell_cells`, `Node.exists_cell` — the cells of a document are its scalars and collections.
* `Node.exists_parent` — the cell that another one is a part of.
-/

namespace ContainerDocs.Yaml

def Content.parts : Content → List Nat
  | .scalar _ => []
  | .sequence items => items
  | .mapping entries => entries.flatMap fun e => [e.1, e.2]

theorem Content.mem_parts_mapping {entries : Entries} {j : Nat} :
    j ∈ (mapping entries).parts ↔ ∃ e ∈ entries, j = e.1 ∨ j = e.2 := by
  simp [parts]

namespace Cells

variable {cells : Cells} {i j : Nat}

theorem cell_of_le (h : cells.size ≤ i) : cells.cell i = {} := by
  rw [cell, Array.getD_eq_getD_getElem?, Array.getElem?_eq_none h, Option.getD_none]

theorem cell_push (cells : Cells) (c : Cell) (j : Nat) :
    Cells.cell (cells.push c) j = if j = cells.size then c else cells.cell j := by
  rw [cell, cell, Array.getD_eq_getD_getElem?, Array.getD_eq_getD_getElem?, Array.getElem?_push]
  split_ifs <;> rfl

@[simp] theorem size_refill (cells : Cells) (i : Nat) (content : Content) :
    (cells.refill i content).size = cells.size := Array.size_modify

theorem cell_refill_self (h : i < cells.size) (content : Content) :
    (cells.refill i content).cell i = ⟨(cells.cell i).tag, content⟩ := by
  rw [refill, cell, cell, Array.getD_eq_getD_getElem?, Array.getD_eq_getD_getElem?,
    Array.getElem?_modify, if_pos rfl, Array.getElem?_eq_getElem h]
  rfl

theorem cell_refill_of_ne (h : i ≠ j) (content : Content) :
    (cells.refill i content).cell j = cells.cell j := by
  rw [refill, cell, cell, Array.getD_eq_getD_getElem?, Array.getD_eq_getD_getElem?,
    Array.getElem?_modify, if_neg h]

theorem tag_refill (cells : Cells) (i j : Nat) (content : Content) :
    ((cells.refill i content).cell j).tag = (cells.cell j).tag := by
  by_cases hj : i = j
  · subst hj
    by_cases hi : i < cells.size
    · rw [cell_refill_self hi]
    · rw [cell_of_le (by simpa using hi), cell_of_le (by simpa using hi)]
  · rw [cell_refill_of_ne hj]

end Cells

/-! ## Putting nodes into cells -/

namespace Store

variable {s : Store} {anchor : Option String} {c : Cell} {j : Nat}

def Sound (s : Store) : Prop := ∀ a ∈ s.anchors, a.2 < s.cells.size

theorem size_add (s : Store) (anchor : Option String) (c : Cell) :
    (s.add anchor c).2.cells.size = s.cells.size + 1 := Array.size_push _

theorem cell_add_self (s : Store) (anchor : Option String) (c : Cell) :
    (s.add anchor c).2.cells.cell s.cells.size = c := (Cells.cell_push _ _ _).trans (if_pos rfl)

theorem cell_add_of_ne (h : j ≠ s.cells.size) :
    (s.add anchor c).2.cells.cell j = s.cells.cell j := (Cells.cell_push _ _ j).trans (if_neg h)

theorem Sound.add (h : s.Sound) (anchor : Option String) (c : Cell) :
    (s.add anchor c).2.Sound := by
  intro a ha
  rw [size_add]
  rcases List.mem_append.1 ha with ha | ha
  · cases anchor with
    | none => cases ha
    | some name =>
      cases List.mem_singleton.1 ha
      exact Nat.lt_succ_self _
  · exact Nat.lt_succ_of_lt (h a ha)

end Store

namespace Node

/-- What is known of the cells behind those of a store when nodes have been put there, with some
scalars and with collections of some tags. An alias without an anchor stands for the first cell. -/
structure Stored (scalars : List (Tag × Text)) (tags : List Tag) (ids : List Nat) (s s' : Store) :
    Prop where
  size_le : s.cells.size ≤ s'.cells.size
  cell_eq : ∀ j < s.cells.size, s'.cells.cell j = s.cells.cell j
  sound : s.Sound → s'.Sound
  ids_lt : s.Sound → ∀ i ∈ ids, i < s'.cells.size ∨ i = 0
  parts_lt : s.Sound → ∀ j, s.cells.size ≤ j → j < s'.cells.size →
    ∀ i ∈ (s'.cells.cell j).content.parts, i < s'.cells.size
  parent : ∀ j, s.cells.size ≤ j → j < s'.cells.size →
    j ∈ ids ∨ ∃ p, s.cells.size ≤ p ∧ p < j ∧ j ∈ (s'.cells.cell p).content.parts
  cell : ∀ j, s.cells.size ≤ j → j < s'.cells.size →
    (∃ p ∈ scalars, s'.cells.cell j = ⟨p.1, .scalar p.2⟩) ∨
      (s'.cells.cell j).tag ∈ tags ∧ ∀ t, (s'.cells.cell j).content ≠ .scalar t
  exists_cell : ∀ p ∈ scalars, ∃ j < s'.cells.size, s'.cells.cell j = ⟨p.1, .scalar p.2⟩
  exists_collection : ∀ tag ∈ tags, ∃ j < s'.cells.size,
    (s'.cells.cell j).tag = tag ∧ ∀ t, (s'.cells.cell j).content ≠ .scalar t

namespace Stored

variable {scalars scalars' : List (Tag × Text)} {tags tags' : List Tag} {ids ids' : List Nat}
  {s s' s'' : Store} {anchor : Option String} {tag : Tag}

theorem nil (s : Store) : Stored [] [] [] s s where
  size_le := Nat.le_refl _
  cell_eq _ _ := rfl
  sound := id
  ids_lt _ _ h := by cases h
  parts_lt _ j hj hj' := absurd hj' (Nat.not_lt.2 hj)
  parent j hj hj' := absurd hj' (Nat.not_lt.2 hj)
  cell j hj hj' := absurd hj' (Nat.not_lt.2 hj)
  exists_cell _ h := by cases h
  exists_collection _ h := by cases h

/-- An alias takes no cell. -/
theorem anchored (s : Store) (name : String) :
    Stored [] [] [(s.anchors.lookup name).getD 0] s s := by
  have h := nil s
  refine ⟨h.size_le, h.cell_eq, h.sound, fun hs i hi => ?_, h.parts_lt,
    fun _ hj hj' => absurd hj' (Nat.not_lt.2 hj), h.cell, h.exists_cell, h.exists_collection⟩
  rw [List.mem_singleton.1 hi]
  cases hname : s.anchors.lookup name with
  | none => exact .inr rfl
  | some i =>
    obtain ⟨before, after, heq, -⟩ := List.lookup_eq_some_iff.1 hname
    exact .inl (hs (name, i) (by simp [heq]))

theorem append (h : Stored scalars tags ids s s') (h' : Stored scalars' tags' ids' s' s'') :
    Stored (scalars ++ scalars') (tags ++ tags') (ids ++ ids') s s'' where
  size_le := Nat.le_trans h.size_le h'.size_le
  cell_eq j hj := (h'.cell_eq j (Nat.lt_of_lt_of_le hj h.size_le)).trans (h.cell_eq j hj)
  sound hs := h'.sound (h.sound hs)
  ids_lt hs := by
    refine List.forall_mem_append.2 ⟨fun i hi => ?_, h'.ids_lt (h.sound hs)⟩
    exact (h.ids_lt hs i hi).imp_left fun hlt => Nat.lt_of_lt_of_le hlt h'.size_le
  parts_lt hs j hj hj' := by
    by_cases hlt : j < s'.cells.size
    · rw [h'.cell_eq j hlt]
      exact fun i hi => Nat.lt_of_lt_of_le (h.parts_lt hs j hj hlt i hi) h'.size_le
    · exact h'.parts_lt (h.sound hs) j (Nat.not_lt.1 hlt) hj'
  parent j hj hj' := by
    by_cases hlt : j < s'.cells.size
    · refine (h.parent j hj hlt).imp (List.mem_append_left ids') fun ⟨p, hle, hp, hpart⟩ => ?_
      exact ⟨p, hle, hp, (h'.cell_eq p (Nat.lt_trans hp hlt)).symm ▸ hpart⟩
    · refine (h'.parent j (Nat.not_lt.1 hlt) hj').imp (List.mem_append_right ids) ?_
      exact fun ⟨p, hle, hp⟩ => ⟨p, Nat.le_trans h.size_le hle, hp⟩
  cell j hj hj' := by
    by_cases hlt : j < s'.cells.size
    · rw [h'.cell_eq j hlt]
      exact (h.cell j hj hlt).imp (fun ⟨p, hp, he⟩ => ⟨p, List.mem_append_left _ hp, he⟩)
        (And.imp_left (List.mem_append_left tags'))
    · exact (h'.cell j (Nat.not_lt.1 hlt) hj').imp
        (fun ⟨p, hp, he⟩ => ⟨p, List.mem_append_right _ hp, he⟩)
        (And.imp_left (List.mem_append_right tags))
  exists_cell := by
    refine List.forall_mem_append.2 ⟨fun p hp => ?_, h'.exists_cell⟩
    obtain ⟨j, hj, he⟩ := h.exists_cell p hp
    exact ⟨j, Nat.lt_of_lt_of_le hj h'.size_le, (h'.cell_eq j hj).trans he⟩
  exists_collection := by
    refine List.forall_mem_append.2 ⟨fun tag htag => ?_, h'.exists_collection⟩
    obtain ⟨j, hj, he⟩ := h.exists_collection tag htag
    exact ⟨j, Nat.lt_of_lt_of_le hj h'.size_le, (h'.cell_eq j hj).symm ▸ he⟩

/-- A scalar takes one cell. -/
theorem scalar (s : Store) (anchor : Option String) (tag : Tag) (text : Text) :
    Stored [(tag, text)] [] [s.cells.size] s (s.add anchor ⟨tag, .scalar text⟩).2 := by
  have hsize := s.size_add anchor ⟨tag, .scalar text⟩
  have hnew := s.cell_add_self anchor ⟨tag, .scalar text⟩
  refine ⟨by omega, fun j hj => Store.cell_add_of_ne (Nat.ne_of_lt hj), fun hs => hs.add _ _,
    fun _ i hi => ?_, fun _ j hj hj' => ?_, fun j hj hj' => ?_, fun j hj hj' => ?_, fun p hp => ?_,
    fun _ h => by cases h⟩
  · rw [hsize, List.mem_singleton.1 hi]
    exact .inl (Nat.lt_succ_self _)
  · obtain rfl : j = s.cells.size := by omega
    rw [hnew]
    intro i hi
    cases hi
  · exact .inl (List.mem_singleton.2 (by omega))
  · obtain rfl : j = s.cells.size := by omega
    exact .inl ⟨_, List.mem_singleton_self _, hnew⟩
  · cases List.mem_singleton.1 hp
    exact ⟨s.cells.size, by omega, hnew⟩

/-- A collection takes the cell in front of those of its parts. -/
theorem collection {empty content : Content} (hempty : ∀ t, empty ≠ .scalar t)
    (hcontent : ∀ t, content ≠ .scalar t)
    (h : Stored scalars tags content.parts (s.add anchor ⟨tag, empty⟩).2 s') :
    Stored scalars (tag :: tags) [s.cells.size] s (s'.refill s.cells.size content) := by
  have hsize := s.size_add anchor ⟨tag, empty⟩
  have hle := h.size_le
  have hsame : (s'.refill s.cells.size content).cells.size = s'.cells.size :=
    Cells.size_refill _ _ _
  have hroot : s'.cells.cell s.cells.size = ⟨tag, empty⟩ :=
    (h.cell_eq _ (by omega)).trans (s.cell_add_self anchor _)
  have hself : (s'.refill s.cells.size content).cells.cell s.cells.size = ⟨tag, content⟩ := by
    exact (Cells.cell_refill_self (by omega) content).trans (by rw [hroot])
  have hrest : ∀ j, j ≠ s.cells.size →
      (s'.refill s.cells.size content).cells.cell j = s'.cells.cell j :=
    fun j hj => Cells.cell_refill_of_ne (Ne.symm hj) content
  refine ⟨by omega, fun j hj => ?_, fun hs => ?_, fun _ i hi => ?_, fun hs j hj hj' => ?_,
    fun j hj hj' => ?_, fun j hj hj' => ?_, fun p hp => ?_, fun other htag => ?_⟩
  · rw [hrest j (by omega), h.cell_eq j (by omega)]
    exact Store.cell_add_of_ne (Nat.ne_of_lt hj)
  · intro a ha
    rw [hsame]
    exact h.sound (hs.add _ _) a ha
  · rw [hsame, List.mem_singleton.1 hi]
    exact .inl (by omega)
  · rw [hsame]
    by_cases heq : j = s.cells.size
    · subst heq
      rw [hself]
      intro i hi
      have := h.ids_lt (hs.add _ _) i hi
      omega
    · rw [hrest j heq]
      exact h.parts_lt (hs.add _ _) j (by omega) (by omega)
  · by_cases heq : j = s.cells.size
    · exact .inl (List.mem_singleton.2 heq)
    · right
      rcases h.parent j (by omega) (by omega) with hpart | ⟨p, hp, hlt, hpart⟩
      · exact ⟨s.cells.size, Nat.le_refl _, by omega, by rwa [hself]⟩
      · exact ⟨p, by omega, hlt, by rwa [hrest p (by omega)]⟩
  · by_cases heq : j = s.cells.size
    · subst heq
      rw [hself]
      exact .inr ⟨List.mem_cons_self, hcontent⟩
    · rw [hrest j heq]
      exact (h.cell j (by omega) (by omega)).imp_right (And.imp_left (List.mem_cons_of_mem tag))
  · obtain ⟨j, hj, he⟩ := h.exists_cell p hp
    refine ⟨j, by omega, (hrest j ?_).trans he⟩
    rintro rfl
    rw [hroot] at he
    exact hempty _ (congrArg Cell.content he)
  · rcases List.mem_cons.1 htag with rfl | htag
    · exact ⟨s.cells.size, by omega, by rw [hself], by rwa [hself]⟩
    · obtain ⟨j, hj, he⟩ := h.exists_collection other htag
      by_cases heq : j = s.cells.size
      · subst heq
        exact ⟨s.cells.size, by omega, by rw [hself, ← he.1, hroot], by rwa [hself]⟩
      · exact ⟨j, by omega, by rwa [hrest j heq]⟩

end Stored

mutual

theorem stored_store : ∀ (n : Node) (s : Store),
    Stored n.scalars n.collections [(store s n).1] s (store s n).2
  | .alias name, s => .anchored s name
  | .scalar anchor tag text, s => .scalar s anchor tag text
  | .sequence anchor tag items, s =>
    .collection (by simp) (by simp) (stored_storeItems items (s.add anchor ⟨tag, .sequence []⟩).2)
  | .mapping anchor tag entries, s =>
    .collection (by simp) (by simp) (stored_storePairs entries (s.add anchor ⟨tag, .mapping []⟩).2)

theorem stored_storeItems : ∀ (items : List Node) (s : Store),
    Stored (itemScalars items) (itemCollections items) (storeItems s items).1 s
      (storeItems s items).2
  | [], s => .nil s
  | n :: rest, s => (stored_store n s).append (stored_storeItems rest (store s n).2)

theorem stored_storePairs : ∀ (entries : List (Node × Node)) (s : Store),
    Stored (pairScalars entries) (pairCollections entries)
      (Content.mapping (storePairs s entries).1).parts s (storePairs s entries).2
  | [], s => .nil s
  | (k, v) :: rest, s =>
    ((stored_store k s).append (stored_store v (store s k).2)).append
      (stored_storePairs rest (store (store s k).2 v).2)

end

/-! ## The cells of a document -/

section Document

variable {n : Node} {j : Nat}

theorem stored_cells (n : Node) :
    Stored n.scalars n.collections [(n.store {}).1] {} (n.store {}).2 := stored_store n {}

theorem sound_empty : ({} : Store).Sound := fun _ h => by cases h

/-- A cell is a scalar or a collection of the document. -/
theorem cell_cells (hj : j < n.cells.size) :
    (∃ p ∈ n.scalars, n.cells.cell j = ⟨p.1, .scalar p.2⟩) ∨
      (n.cells.cell j).tag ∈ n.collections ∧ ∀ t, (n.cells.cell j).content ≠ .scalar t :=
  n.stored_cells.cell j (Nat.zero_le _) hj

/-- Every scalar of the document has a cell. -/
theorem exists_cell : ∀ p ∈ n.scalars, ∃ j < n.cells.size, n.cells.cell j = ⟨p.1, .scalar p.2⟩ :=
  n.stored_cells.exists_cell

/-- Every collection of the document has a cell. -/
theorem exists_collection : ∀ tag ∈ n.collections, ∃ j < n.cells.size,
    (n.cells.cell j).tag = tag ∧ ∀ t, (n.cells.cell j).content ≠ .scalar t :=
  n.stored_cells.exists_collection

theorem lt_of_mem_parts (hj : j < n.cells.size) {i : Nat}
    (hi : i ∈ (n.cells.cell j).content.parts) : i < n.cells.size :=
  n.stored_cells.parts_lt sound_empty j (Nat.zero_le _) hj i hi

/-- The root of a document has the first cell, if there is one. -/
theorem store_empty (n : Node) : (n.store {}).1 = 0 := by
  cases n <;> rfl

/-- Every cell but the first one is a part of a cell in front of it. -/
theorem exists_parent (hj : j < n.cells.size) (hzero : j ≠ 0) :
    ∃ p < j, j ∈ (n.cells.cell p).content.parts := by
  rcases n.stored_cells.parent j (Nat.zero_le _) hj with hroot | ⟨p, -, hp⟩
  · rw [store_empty] at hroot
    exact absurd (List.mem_singleton.1 hroot) hzero
  · exact ⟨p, hp⟩

end Document

end Node
end ContainerDocs.Yaml

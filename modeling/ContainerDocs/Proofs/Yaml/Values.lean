import ContainerDocs.Proofs.Yaml.Building

/-!
# Which documents have a value

A document without a value breaks the rules of the format, holds a scalar whose text does not fit
its tag, or has a mapping with the tag of a moment, unless it is too deep. A scalar that does not
fit never goes unnoticed, wherever in the document it stands, unless a collection has the tag of a
scalar.

## Main statements

* `Node.explains_of_values` — why a document has no values.
* `Node.fits_of_values` — no scalar that does not fit goes unnoticed.
* `Node.values_eq_ok_iff_of_isOrdinary` — the ordinary documents that have values.
-/

namespace ContainerDocs.Yaml

namespace Node

open Building Builder

variable {limits : Limits} {n : Node} {f : Fault} {b : Builder}

def builder (n : Node) : Builder :=
  { cells := n.cells, values := Array.replicate n.cells.size none }

theorem size_builder (n : Node) : n.builder.values.size = n.cells.size := Array.size_replicate

theorem not_built_builder (n : Node) (i : Nat) : ¬n.builder.Built i := by
  rw [Built, builder, Array.getD_eq_getD_getElem?, Array.getElem?_replicate]
  split_ifs <;> exact Bool.false_ne_true

theorem invariant_builder (n : Node) : Invariant n [] [] n.builder where
  evolves := .refl _
  size_eq := n.size_builder
  starts i v hv := absurd (Option.isSome_iff_exists.2 ⟨v, hv⟩) (n.not_built_builder i)
  filled i hi := absurd hi (n.not_built_builder i)
  waits i hi := by simp [builder] at hi
  saves := .refl _ _

theorem work_builder_le (n : Node) : n.builder.work ≤ n.cells.size := by
  change {i ∈ Finset.range n.builder.values.size | ¬n.builder.Built i}.card ≤ n.cells.size
  refine Nat.le_trans (Finset.card_filter_le _ _) (Nat.le_of_eq ?_)
  rw [Finset.card_range, size_builder]

/-- Nothing becomes of a document without nodes. -/
theorem run_build_of_empty (limits : Limits) (n : Node) (h : n.cells.size = 0) :
    (build limits 0).run n.builder = .ok ((), n.builder) := by
  obtain ⟨room, hroom⟩ := Nat.exists_eq_add_of_le' limits.hundred_le_standing
  have hcell : n.cells.cell 0 = {} := Cells.cell_of_le (Nat.le_of_eq h)
  have hstart : n.cells.start limits 0 = .ok (.scalar .null) := by
    rw [Cells.start, hcell, hroom, Cells.text, hcell]
    rfl
  have hvalues : n.builder.values.setIfInBounds 0 (some (.scalar .null)) = n.builder.values :=
    Array.setIfInBounds_eq_of_size_le (Nat.le_of_eq (n.size_builder.trans h))
  have hsame : n.builder.put 0 (.scalar .null) = n.builder := by
    rw [put, Builder.set, hvalues, show n.builder.cells.cell 0 = {} from hcell]
    rfl
  rw [run_build (n.not_built_builder 0), builder, hstart]
  exact congrArg (fun b => Except.ok ((), b)) hsame

/-- The root of a document becomes something, and then everything that has come up. -/
theorem yields_values (limits : Limits) (n : Node) :
    Yields limits n n.builder
      (fun _ b => Invariant n [] [] b ∧ b.waiting = [] ∧ (0 < n.cells.size → b.Built 0)) (do
        build limits 0
        finish limits (n.cells.size + 1)) := by
  have hrest : ∀ b, n.builder.Extends b → Invariant n [] [] b → (0 < n.cells.size → b.Built 0) →
      Yields limits n b
        (fun _ b => Invariant n [] [] b ∧ b.waiting = [] ∧ (0 < n.cells.size → b.Built 0))
        (finish limits (n.cells.size + 1)) := by
    intro b hextends hb hroot
    have hwork : b.work ≤ n.cells.size + 1 := by
      refine Nat.le_trans (Nat.le_trans hextends.work_le n.work_builder_le) (Nat.le_succ _)
    refine (yields_finish _ hb fun _ => hwork).mono fun _ b' hextends' h => ⟨h.1, h.2, ?_⟩
    exact fun hpos => hextends'.built 0 (hroot hpos)
  by_cases hpos : 0 < n.cells.size
  · refine (yields_build n.invariant_builder hpos).bind fun _ b hextends h => ?_
    exact hrest b hextends h.1 fun _ => h.2
  · rw [Yields, StateT.run_bind, n.run_build_of_empty limits (by omega)]
    exact hrest n.builder (.refl _) n.invariant_builder fun h => absurd h hpos

/-- What a merge key stands for is a mapping or a sequence of mappings. -/
theorem filled_of_targets (h : Invariant n [] [] b) {v : Nat}
    (htargets : ∀ y ∈ n.cells.targets v, b.cells.FlatWith (b.Covers []) y) : b.Filled [] v := by
  rw [Cells.targets] at htargets
  cases hcontent : (n.cells.cell v).content with
  | scalar t =>
    rw [hcontent] at htargets
    exact .inl (htargets v (List.mem_singleton_self v))
  | sequence items =>
    rw [hcontent] at htargets
    refine .inr ⟨items, ?_, fun k hk => .inr (htargets k hk)⟩
    rw [h.evolves.content v (by rw [Cells.isMapping, hcontent]), hcontent]
  | mapping es =>
    rw [hcontent] at htargets
    exact .inl (htargets v (List.mem_singleton_self v))

/-- A part of a collection whose parts have been noticed has become something in the end, or it is a
merge key, or a collection whose parts have become something. -/
theorem noticed_part (h : Invariant n [] [] b) {j p : Nat} (hfilled : b.Filled [] p)
    (hpart : j ∈ (n.cells.cell p).content.parts) :
    (n.cells.cell j).tag = .merge ∨ b.Built j ∨ b.Filled [] j := by
  rcases hfilled with hflat | ⟨items, hitems, hall⟩
  · have hmapping := (h.evolves.isMapping p).symm.trans hflat.isMapping
    rw [Cells.content_of_isMapping hmapping, Content.mem_parts_mapping] at hpart
    obtain ⟨e, he, hpart⟩ := hpart
    by_cases hkey : n.cells.hasKey .merge e = true
    · have hgone : e ∉ b.cells.entries p := by
        intro hmem
        have hplain := hflat.isFlat e hmem
        rw [h.evolves.hasKey_merge, hkey] at hplain
        cases hplain
      have htargets := h.saves p e he hkey hgone
      rcases hpart with rfl | rfl
      · exact .inl (of_decide_eq_true hkey)
      · exact .inr (.inr (filled_of_targets h htargets))
    · have hcovers := hflat.entries e (h.evolves.mem_entries p e he (Bool.eq_false_iff.2 hkey))
      have hboth := hcovers.resolve_left List.not_mem_nil
      exact .inr (.inl (hpart.elim (fun heq => heq ▸ hboth.1) fun heq => heq ▸ hboth.2))
  · have hmapping : b.cells.isMapping p = false := by rw [Cells.isMapping, hitems]
    rw [← h.evolves.content p ((h.evolves.isMapping p).symm.trans hmapping), hitems] at hpart
    exact .inr ((hall j hpart).imp_right .inl)

/-- Where collections have the tags of collections, every node has become something in the end, or
it is a merge key, or a collection whose parts have become something. -/
theorem noticed (h : Invariant n [] [] b) (hwaiting : b.waiting = [])
    (hroot : 0 < n.cells.size → b.Built 0) (htags : ∀ tag ∈ n.collections, tag.isCollection = true)
    {j : Nat} (hj : j < n.cells.size) :
    (n.cells.cell j).tag = .merge ∨ b.Built j ∨ b.Filled [] j := by
  induction j using Nat.strong_induction_on with
  | h j ih =>
    by_cases hzero : j = 0
    · subst hzero
      exact .inr (.inl (hroot hj))
    obtain ⟨p, hp, hpart⟩ := exists_parent hj hzero
    have hlt := Nat.lt_trans hp hj
    have htag : (n.cells.cell p).tag.isCollection = true := by
      rcases n.cell_cells hlt with ⟨q, -, hcell⟩ | ⟨htag, -⟩
      · rw [hcell] at hpart
        cases hpart
      · exact htags _ htag
    refine noticed_part h ?_ hpart
    rcases ih p hp hlt with hmerge | hbuilt | hfilled
    · rw [hmerge] at htag
      cases htag
    · refine (h.filled p hbuilt htag).resolve_left ?_
      simp [hwaiting]
    · exact hfilled

theorem values_eq (limits : Limits) (n : Node) :
    n.values limits = (StateT.run (do
      build limits 0
      finish limits (n.cells.size + 1)) n.builder).map fun p => p.2.values := by
  rw [values, builder]
  cases StateT.run (do
      build limits 0
      finish limits (n.cells.size + 1)) (⟨n.cells, Array.replicate n.cells.size none, []⟩ : Builder)
  <;> rfl

/-- A document without values has a reason for it. -/
theorem explains_of_values (h : n.values limits = .error f) : n.Explains limits f := by
  rw [values_eq] at h
  exact (yields_values limits n).error_of_eq (Scalar.eq_error_of_map h)

/-- No scalar goes unnoticed that does not fit its tag. -/
theorem fits_of_values {values : Array (Option Value)} (h : n.values limits = .ok values)
    (htags : ∀ tag ∈ n.collections, tag.isCollection = true) : ∀ p ∈ n.scalars, Scalar.Fits p := by
  have hyields := yields_values limits n
  rw [values_eq] at h
  rw [Yields] at hyields
  cases hrun : StateT.run (do
      build limits 0
      finish limits (n.cells.size + 1)) n.builder with
  | error f =>
    rw [hrun] at h
    cases h
  | ok p =>
    obtain ⟨-, hinvariant, hwaiting, hroot⟩ := hyields.ok_of_eq hrun
    intro q hq
    obtain ⟨j, hj, hcell⟩ := n.exists_cell q hq
    have hmapping : n.cells.isMapping j = false := by rw [Cells.isMapping, hcell]
    rcases noticed hinvariant hwaiting hroot htags hj with hmerge | hbuilt | hfilled
    · rw [hcell] at hmerge
      exact fun f hf => Scalar.isProblem_of_value (List.mem_cons.2 (.inl hmerge)) hf
    · obtain ⟨v, hv⟩ := Option.isSome_iff_exists.1 hbuilt
      exact (hinvariant.starts j v hv).fits q.1 q.2 hcell
    · have hcontent := hinvariant.evolves.content j hmapping
      rw [hcell] at hcontent
      rcases hfilled with hflat | ⟨items, hitems, -⟩
      · have hfalse := (hinvariant.evolves.isMapping j).symm.trans hflat.isMapping
        rw [hmapping] at hfalse
        cases hfalse
      · rw [hcontent] at hitems
        cases hitems

/-- The tags of the collections of an ordinary document are those of collections. -/
theorem isCollection_of_isOrdinary (h : n.cells.IsOrdinary) :
    ∀ tag ∈ n.collections, tag.isCollection = true := by
  intro tag htag
  obtain ⟨j, hj, rfl, hcontent⟩ := n.exists_collection tag htag
  rcases h.collection hj hcontent with ⟨heq, -⟩ | ⟨heq, -⟩ <;> rw [heq] <;> rfl

/-- An ordinary document has values exactly if all its scalars fit their tags, and it never breaks
the rules of the format. -/
theorem values_eq_ok_iff_of_isOrdinary (limits : Limits) (h : n.cells.IsOrdinary) :
    ((∃ values, n.values limits = .ok values) ↔ ∀ p ∈ n.scalars, Scalar.Fits p) ∧
      ∀ f, n.values limits = .error f → ¬f.IsProblem := by
  have htags := n.isCollection_of_isOrdinary h
  have hproblem : ∀ f, n.values limits = .error f → ¬f.IsProblem :=
    fun f hf hproblem => (explains_of_values hf).not_isOrdinary hproblem h
  refine ⟨⟨?_, fun hfits => ?_⟩, hproblem⟩
  · rintro ⟨values, hvalues⟩
    exact fits_of_values hvalues htags
  · cases hvalues : n.values limits with
    | ok values => exact ⟨values, rfl⟩
    | error f =>
      have hf := hproblem f hvalues
      rcases (explains_of_values hvalues).cases.resolve_left hf with hfault | ⟨-, htag⟩ | ⟨-, hdeep⟩
      · obtain ⟨p, hp, hscalar | ⟨tag, htag, hcollection⟩⟩ := hfault
        · exact absurd (hfits p hp f hscalar) hf
        · exact absurd (isProblem_of_isCollection (htags tag htag) hcollection) hf
      · cases htags _ htag
      · rcases hdeep with hmerging | ⟨tag, htag, hfalse⟩
        · have := limits.hundred_le_merging
          rw [h.merges_eq_zero] at hmerging
          omega
        · rw [htags tag htag] at hfalse
          cases hfalse

end Node
end ContainerDocs.Yaml

import ContainerDocs.Proofs.Yaml.Merging
import ContainerDocs.Proofs.Yaml.Scalars
import ContainerDocs.Yaml.Value

/-!
# What the nodes of a document become at first

A node becomes a scalar or an empty collection, unless its tag makes nothing of it or the value of a
scalar has a fault. The reason for a fault is always in the document.

## Main definitions

* `Cells.IsOrdinary` — a document of plain scalars, sequences and mappings.
* `Scalar.Fits` — a scalar fits its tag.
* `Node.Explains` — why the nodes of a document have no values.
* `Starts` — what is known of the first value of a node.

## Main statements

* `start_cases` — what a tag makes of a node.
* `gives_start` — the first value of a node, or the reason why there is none.
-/

namespace ContainerDocs.Yaml

/-! ## Ordinary nodes -/

def Content.isScalar : Content → Bool
  | .scalar _ => true
  | _ => false

def Content.IsOrdinary (cells : Cells) (tag : Tag) : Content → Prop
  | .scalar _ => Scalar.IsOrdinaryTag tag
  | .sequence _ => tag = .sequence
  | .mapping entries =>
    tag = .mapping ∧ ∀ e ∈ entries, (cells.cell e.1).content.isScalar = true

instance (cells : Cells) (tag : Tag) : DecidablePred (Content.IsOrdinary cells tag)
  | .scalar _ => inferInstanceAs (Decidable (tag ∈ _))
  | .sequence _ => inferInstanceAs (Decidable (tag = .sequence))
  | .mapping entries => inferInstanceAs (Decidable (tag = .mapping ∧ ∀ e ∈ entries, _ = true))

/-- Whether cells hold nothing but ordinary scalars, sequences, and mappings with scalars as
keys. -/
def Cells.IsOrdinary (cells : Cells) : Prop :=
  ∀ i < cells.size, (cells.cell i).content.IsOrdinary cells (cells.cell i).tag

instance : DecidablePred Cells.IsOrdinary := fun cells =>
  inferInstanceAs (Decidable (∀ i < cells.size, _))

namespace Cells

variable {cells : Cells} {i : Nat}

theorem IsOrdinary.scalar (h : cells.IsOrdinary) (hi : i < cells.size) {t : Text}
    (hcontent : (cells.cell i).content = .scalar t) : Scalar.IsOrdinaryTag (cells.cell i).tag := by
  have hat := h i hi
  rwa [hcontent] at hat

theorem IsOrdinary.collection (h : cells.IsOrdinary) (hi : i < cells.size)
    (hcontent : ∀ t, (cells.cell i).content ≠ .scalar t) :
    (cells.cell i).tag = .sequence ∧ (∃ items, (cells.cell i).content = .sequence items) ∨
      (cells.cell i).tag = .mapping ∧ cells.isMapping i = true := by
  have hat := h i hi
  cases heq : (cells.cell i).content with
  | scalar t => exact absurd heq (hcontent t)
  | sequence items =>
    rw [heq] at hat
    exact .inl ⟨hat, items, rfl⟩
  | mapping es =>
    rw [heq] at hat
    exact .inr ⟨hat.1, isMapping_iff.2 ⟨es, heq⟩⟩

theorem IsOrdinary.tag (h : cells.IsOrdinary) (hi : i < cells.size) :
    (cells.cell i).tag ∈
      [Tag.null, .bool, .int, .float, .timestamp, .text, .sequence, .mapping] := by
  have hat := h i hi
  cases heq : (cells.cell i).content with
  | scalar t =>
    rw [heq] at hat
    exact List.mem_append_left [.sequence, .mapping] hat
  | sequence items =>
    rw [heq] at hat
    change _ = _ at hat
    simp [hat]
  | mapping es =>
    rw [heq] at hat
    simp [hat.1]

theorem IsOrdinary.key (h : cells.IsOrdinary) {e : Nat × Nat} (he : e ∈ cells.entries i) :
    (cells.cell e.1).content.isScalar = true := by
  have hmapping := isMapping_of_mem he
  have hat := h i (lt_size_of_isMapping hmapping)
  rw [content_of_isMapping hmapping] at hat
  exact hat.2 e he

/-- An ordinary document has no merge keys. -/
theorem IsOrdinary.merges_eq_zero (h : cells.IsOrdinary) : cells.merges = 0 := by
  refine Finset.sum_eq_zero fun i _ => mergeCount_eq_zero_iff.2 fun e he => decide_eq_false ?_
  intro hmerge
  have hkey := h.key he
  by_cases hlt : e.1 < cells.size
  · have hmem := h.tag hlt
    rw [hmerge] at hmem
    simp at hmem
  · rw [cell_of_le (Nat.not_lt.1 hlt)] at hmerge
    cases hmerge

end Cells

/-! ## Faults -/

/-- A scalar fits its tag as far as the rules of the format allow it. -/
def Scalar.Fits (p : Tag × Text) : Prop := ∀ f, Scalar.value p.1 p.2 = .error f → f.IsProblem

instance (p : Tag × Text) : Decidable (Scalar.Fits p) :=
  decidable_of_iff (∀ f ∈ fault? (Scalar.value p.1 p.2), f.IsProblem) (by
    simp only [Scalar.Fits, Option.mem_def, fault?_eq_some_iff])

namespace Node

def HasFault (n : Node) (f : Fault) : Prop :=
  ∃ p ∈ n.scalars, Scalar.value p.1 p.2 = .error f ∨
    ∃ tag ∈ n.collections, Scalar.value tag p.2 = .error f

/-- A document has so many merge keys that not every mapping can be merged into the next, or a
collection with the tag of a scalar, which may stand for itself. -/
def GoesDeep (limits : Limits) (n : Node) : Prop :=
  limits.merging ≤ n.cells.merges ∨ ∃ tag ∈ n.collections, tag.isCollection = false

/-- Why the nodes of a document have no values. An ordinary document breaks no rules. -/
structure Explains (limits : Limits) (n : Node) (f : Fault) : Prop where
  not_isOrdinary : f.IsProblem → ¬n.cells.IsOrdinary
  cases : f.IsProblem ∨ n.HasFault f ∨ f = .mappingAsMoment ∧ .timestamp ∈ n.collections ∨
    f = .tooDeep ∧ n.GoesDeep limits

variable {limits : Limits} {n : Node} {f : Fault}

theorem Explains.of_problem (p : Problem) (h : ¬n.cells.IsOrdinary) :
    n.Explains limits (.malformed p) := ⟨fun _ => h, .inl ⟨p, rfl⟩⟩

theorem Explains.of_goesDeep (h : n.GoesDeep limits) : n.Explains limits .tooDeep :=
  ⟨nofun, .inr (.inr (.inr ⟨rfl, h⟩))⟩

end Node

/-- No text has a collection as its value. -/
theorem isProblem_of_isCollection {tag : Tag} (h : tag.isCollection = true) {t : Text}
    {f : Fault} (hf : Scalar.value tag t = .error f) : f.IsProblem := by
  rw [Tag.isCollection.eq_def] at h
  split at h
  all_goals first | cases h; done | (rw [Scalar.value] at hf; cases hf; exact ⟨_, rfl⟩)

/-! ## First values -/

section Start

variable {limits : Limits} {n : Node} {cells : Cells} {i : Nat}

/-- The parts of a mapping are nodes of the document. -/
theorem lt_of_mem_entries (h : n.cells.Evolves cells) {e : Nat × Nat} (he : e ∈ cells.entries i) :
    e.1 < n.cells.size ∧ e.2 < n.cells.size := by
  obtain ⟨k, hk⟩ := h.origin i e he
  have hlt := Cells.lt_size_of_isMapping (Cells.isMapping_of_mem hk)
  obtain ⟨hkey, hvalue⟩ := Cells.mem_parts hk
  exact ⟨n.lt_of_mem_parts hlt hkey, n.lt_of_mem_parts hlt hvalue⟩

/-- The text that a node stands for is that of a scalar. -/
theorem gives_text (h : n.cells.Evolves cells) (room : Nat) (hi : i < n.cells.size) :
    Gives (fun f => f.IsProblem ∨ f = .tooDeep) (fun t => ∃ p ∈ n.scalars, p.2 = t)
      (cells.text room i) := by
  induction room generalizing i with
  | zero => exact .inr rfl
  | succ room ih =>
    rw [Cells.text]
    cases hcontent : (cells.cell i).content with
    | scalar t =>
      have hmapping : cells.isMapping i = false := by rw [Cells.isMapping, hcontent]
      have hsame := h.content i ((h.isMapping i).symm.trans hmapping)
      rcases n.cell_cells hi with ⟨p, hp, hcell⟩ | ⟨-, hnot⟩
      · rw [hcell, hcontent] at hsame
        exact ⟨p, hp, (Content.scalar.inj hsame).symm⟩
      · exact absurd (hsame.symm.trans hcontent) (hnot t)
    | sequence items => exact .inl ⟨_, rfl⟩
    | mapping es =>
      dsimp only
      cases hfind : es.find? (cells.hasKey .default) with
      | none => exact .inl ⟨_, rfl⟩
      | some e =>
        refine ih (lt_of_mem_entries (i := i) h ?_).2
        rw [Cells.entries_of_content hcontent]
        exact List.mem_of_find?_eq_some hfind

structure Starts (n : Node) (i : Nat) (v : Value) : Prop where
  not_merge : (n.cells.cell i).tag ≠ .merge
  scalar : (n.cells.cell i).tag.isCollection = false → ∃ d, v = .scalar d
  fits : ∀ tag text, n.cells.cell i = ⟨tag, .scalar text⟩ → Scalar.Fits (tag, text)

theorem isCollection_eq (h : n.cells.Evolves cells) (i : Nat) :
    (cells.cell i).tag.isCollection = (n.cells.cell i).tag.isCollection := by
  rcases h.tag i with heq | ⟨hdefault, htext⟩
  · rw [heq]
  · rw [hdefault, htext]
    rfl

/-- A tag makes a collection of a node, it makes nothing of it, or it makes a value of the text that
the node stands for. -/
theorem start_cases (limits : Limits) (cells : Cells) (i : Nat) :
    ((cells.cell i).tag.isCollection = true ∧ ∃ v, cells.start limits i = .ok v) ∨
      (((cells.cell i).tag = .merge ∨ (cells.cell i).tag = .default ∨
          ∃ address, (cells.cell i).tag = .unknown address) ∧
        cells.start limits i = .error (.malformed .unknownTag)) ∨
      ((cells.cell i).tag.isCollection = false ∧ (cells.cell i).tag ≠ .merge ∧
        cells.start limits i = do
          let t ← cells.text limits.standing i
          if (cells.cell i).tag = .timestamp ∧ cells.isMapping i then .error .mappingAsMoment
          else return .scalar (← Scalar.value (cells.cell i).tag t)) := by
  rw [Cells.start]
  cases (cells.cell i).tag with
  | sequence => exact .inl ⟨rfl, _, rfl⟩
  | mapping => exact .inl ⟨rfl, _, rfl⟩
  | set => exact .inl ⟨rfl, _, rfl⟩
  | orderedMapping => exact .inl ⟨rfl, _, rfl⟩
  | pairs => exact .inl ⟨rfl, _, rfl⟩
  | merge => exact .inr (.inl ⟨.inl rfl, rfl⟩)
  | default => exact .inr (.inl ⟨.inr (.inl rfl), rfl⟩)
  | unknown address => exact .inr (.inl ⟨.inr (.inr ⟨address, rfl⟩), rfl⟩)
  | _ => exact .inr (.inr ⟨rfl, nofun, rfl⟩)

/-- A scalar becomes a value, unless its value has a fault. -/
theorem gives_value_of_scalar {tag tag' : Tag} {t : Text} (hp : (tag, t) ∈ n.scalars)
    (hcell : n.cells.cell i = ⟨tag, .scalar t⟩) (hi : i < n.cells.size) (hmerge : tag' ≠ .merge)
    (htag : tag' = tag ∨ tag = .default ∧ tag' = .text) :
    Gives (n.Explains limits) (Starts n i) (do return .scalar (← Scalar.value tag' t)) := by
  have hfits : Scalar.Fits (tag, t) →
      ∀ tag' text, n.cells.cell i = ⟨tag', .scalar text⟩ → Scalar.Fits (tag', text) := by
    intro hfits tag' text hcell'
    rw [hcell] at hcell'
    cases hcell'
    exact hfits
  rcases htag with rfl | ⟨rfl, rfl⟩
  · cases hvalue : Scalar.value tag' t with
    | ok d =>
      refine ⟨hcell ▸ hmerge, fun _ => ⟨d, rfl⟩, hfits fun f hf => ?_⟩
      rw [hvalue] at hf
      cases hf
    | error f =>
      refine ⟨fun hproblem hordinary => ?_, .inr (.inl ⟨_, hp, .inl hvalue⟩)⟩
      have htag := hordinary.scalar hi (congrArg Cell.content hcell)
      rw [hcell] at htag
      exact (Scalar.isOfValue_of_value htag hvalue).not_isProblem hproblem
  · refine ⟨hcell ▸ nofun, fun _ => ⟨_, rfl⟩, hfits fun f hf => ?_⟩
    exact Scalar.isProblem_of_value (by simp) hf

/-- A collection with the tag of a scalar stands for a scalar, and its value can have a fault. -/
theorem gives_value_of_collection {tag' : Tag} (htag : (n.cells.cell i).tag ∈ n.collections)
    (hcontent : ∀ t, (n.cells.cell i).content ≠ .scalar t) (hi : i < n.cells.size)
    (hcollection : (n.cells.cell i).tag.isCollection = false)
    (htag' : tag' = (n.cells.cell i).tag ∨ (n.cells.cell i).tag = .default ∧ tag' = .text)
    (hmerge : tag' ≠ .merge) {x : Except Fault Text} (c : Prop) [Decidable c]
    (hx : Gives (fun f => f.IsProblem ∨ f = .tooDeep) (fun t => ∃ p ∈ n.scalars, p.2 = t) x) :
    Gives (n.Explains limits) (Starts n i) (do
      let t ← x
      if tag' = .timestamp ∧ c then .error .mappingAsMoment
      else return .scalar (← Scalar.value tag' t)) := by
  have hordinary : ¬n.cells.IsOrdinary := by
    intro hordinary
    rcases hordinary.collection hi hcontent with ⟨heq, -⟩ | ⟨heq, -⟩ <;> rw [heq] at hcollection <;>
      cases hcollection
  have hnot : (n.cells.cell i).tag ≠ .merge := by
    rcases htag' with rfl | ⟨heq, -⟩
    · exact hmerge
    · rw [heq]
      exact nofun
  refine Gives.bind (P := n.Explains limits) (hx.mono ?_ fun _ => id) fun t ht => Gives.ite ?_ ?_
  · rintro f (⟨p, rfl⟩ | rfl)
    · exact .of_problem p hordinary
    · exact .of_goesDeep (.inr ⟨_, htag, hcollection⟩)
  · rintro ⟨rfl, -⟩
    refine ⟨nofun, .inr (.inr (.inl ⟨rfl, ?_⟩))⟩
    exact htag'.elim (fun heq => heq ▸ htag) fun h => nomatch h.2
  · intro _
    cases hvalue : Scalar.value tag' t with
    | ok d =>
      exact ⟨hnot, fun _ => ⟨d, rfl⟩, fun _ text hcell =>
        absurd (congrArg Cell.content hcell) (hcontent text)⟩
    | error f =>
      obtain ⟨p, hp, rfl⟩ := ht
      refine ⟨fun _ => hordinary, .inr (.inl ⟨p, hp, .inr ⟨_, htag, ?_⟩⟩)⟩
      rcases htag' with rfl | ⟨-, rfl⟩
      · exact hvalue
      · cases hvalue

/-- A node gets a first value, or there is a reason why the document has none. -/
theorem gives_start (h : n.cells.Evolves cells) (hi : i < n.cells.size) :
    Gives (n.Explains limits) (Starts n i) (cells.start limits i) := by
  obtain ⟨hcollection, v, hv⟩ | ⟨htag, hstart⟩ | ⟨hcollection, hmerge, hstart⟩ :=
    start_cases limits cells i
  · rw [hv]
    rw [isCollection_eq h] at hcollection
    refine ⟨?_, fun hfalse => ?_, fun tag text hcell f hf => ?_⟩
    · rintro heq
      rw [heq] at hcollection
      cases hcollection
    · rw [hcollection] at hfalse
      cases hfalse
    · rw [hcell] at hcollection
      exact isProblem_of_isCollection hcollection hf
  · rw [hstart]
    refine .of_problem _ fun hordinary => ?_
    have hmem := hordinary.tag hi
    have htag' : (n.cells.cell i).tag = (cells.cell i).tag := by
      refine ((h.tag i).resolve_right ?_).symm
      rintro ⟨hdefault, -⟩
      rw [hdefault] at hmem
      simp at hmem
    rw [htag'] at hmem
    rcases htag with heq | heq | ⟨address, heq⟩ <;> rw [heq] at hmem <;> simp at hmem
  · rw [hstart]
    rcases n.cell_cells hi with ⟨⟨tag, t⟩, hp, hcell⟩ | ⟨htag, hcontent⟩
    · have hmapping : n.cells.isMapping i = false := by rw [Cells.isMapping, hcell]
      have hsame : (cells.cell i).content = .scalar t := by rw [h.content i hmapping, hcell]
      obtain ⟨room, hroom⟩ := Nat.exists_eq_add_of_le' limits.hundred_le_standing
      have htext : cells.text limits.standing i = .ok t := by
        rw [hroom, Cells.text, hsame]
      rw [htext, (h.isMapping i).trans hmapping]
      have htag := h.tag i
      rw [hcell] at htag
      refine Gives.ite (fun hfalse => ?_)
        fun _ => gives_value_of_scalar hp hcell hi hmerge htag
      cases hfalse.2
    · exact gives_value_of_collection htag hcontent hi (isCollection_eq h i ▸ hcollection) (h.tag i)
        hmerge _ (gives_text h _ hi)

end Start

end ContainerDocs.Yaml

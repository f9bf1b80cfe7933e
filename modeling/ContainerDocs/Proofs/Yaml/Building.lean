import ContainerDocs.Proofs.Yaml.Start

/-!
# How the nodes of a document get their values

A node gets its value once, and a collection that has come up waits until it is filled. So at every
step each collection with a value waits, is about to be filled, or has nothing but parts that have
been noticed.

## Main definitions

* `Builder.Filled` — a collection with parts that have been noticed.
* `Building.Invariant` — what holds at every step.
* `Building.Yields` — what is known of a step.

## Main statements

* `Building.yields_build`, `Building.yields_fill` — a node gets a value, and a collection its parts.
* `Building.yields_finish` — no collection waits in the end.
-/

namespace ContainerDocs.Yaml

/-! ## Builders -/

namespace Builder

variable {n : Node} {b b' b'' : Builder} {i j : Nat} {v : Value} {e : Nat × Nat}
  {todo todo' : Entries}

def Built (b : Builder) (i : Nat) : Prop := (b.values.getD i none).isSome = true

instance (b : Builder) : DecidablePred b.Built := fun i =>
  inferInstanceAs (Decidable ((b.values.getD i none).isSome = true))

theorem Built.lt_size (h : b.Built i) : i < b.values.size := by
  by_contra hle
  rw [Built, Array.getD_eq_getD_getElem?, Array.getElem?_eq_none (Nat.not_lt.1 hle)] at h
  cases h

/-- The key and the value of an entry have become something, or are about to. -/
def Covers (todo : Entries) (b : Builder) (e : Nat × Nat) : Prop :=
  e ∈ todo ∨ b.Built e.1 ∧ b.Built e.2

/-- A mapping without merge keys and with covered entries, or a sequence of such mappings and of
nodes that have become something. -/
def Filled (todo : Entries) (b : Builder) (i : Nat) : Prop :=
  b.cells.FlatWith (b.Covers todo) i ∨ ∃ items, (b.cells.cell i).content = .sequence items ∧
    ∀ k ∈ items, b.Built k ∨ b.cells.FlatWith (b.Covers todo) k

/-- How much is to be done: the nodes that have become nothing, and the collections that wait. -/
def work (b : Builder) : Nat :=
  {i ∈ Finset.range b.values.size | ¬b.Built i}.card + b.waiting.length

/-- What a later builder still has of an earlier one. -/
structure Extends (b b' : Builder) : Prop where
  built : ∀ i, b.Built i → b'.Built i
  evolves : b.cells.Evolves b'.cells
  work_le : b'.work ≤ b.work

theorem Extends.refl (b : Builder) : Extends b b := ⟨fun _ => id, .refl b.cells, Nat.le_refl _⟩

theorem Extends.trans (h : Extends b b') (h' : Extends b' b'') : Extends b b'' :=
  ⟨fun i hi => h'.built i (h.built i hi), h.evolves.trans h'.evolves,
    Nat.le_trans h'.work_le h.work_le⟩

theorem Extends.covers (h : Extends b b') (hcovers : b.Covers todo e) : b'.Covers todo e :=
  hcovers.imp_right fun hboth => ⟨h.built _ hboth.1, h.built _ hboth.2⟩

theorem Extends.flatWith (h : Extends b b') (hcovers : ∀ e, b'.Covers todo e → b'.Covers todo' e)
    (hflat : b.cells.FlatWith (b.Covers todo) i) : b'.cells.FlatWith (b'.Covers todo') i :=
  (h.evolves.flatWith hflat).mono fun e he => hcovers e (h.covers he)

theorem Extends.filled (h : Extends b b') (hcovers : ∀ e, b'.Covers todo e → b'.Covers todo' e)
    (hfilled : b.Filled todo i) : b'.Filled todo' i := by
  refine hfilled.imp (h.flatWith hcovers) fun ⟨items, hitems, hall⟩ => ⟨items, ?_, fun k hk => ?_⟩
  · rw [h.evolves.content i (by rw [Cells.isMapping, hitems]), hitems]
  · exact (hall k hk).imp (h.built k) (h.flatWith hcovers)

/-- A builder where a node has become something, perhaps once more. -/
def set (b : Builder) (i : Nat) (v : Value) : Builder :=
  { b with values := b.values.setIfInBounds i (some v) }

theorem getD_set (hi : i < b.values.size) (v : Value) (j : Nat) :
    (b.set i v).values.getD j none = if j = i then some v else b.values.getD j none := by
  rw [set, Array.getD_eq_getD_getElem?, Array.getD_eq_getD_getElem?, Array.getElem?_setIfInBounds]
  by_cases heq : i = j
  · subst heq
    rw [if_pos rfl, if_pos hi, if_pos rfl]
    rfl
  · rw [if_neg heq, if_neg (Ne.symm heq)]

theorem size_set (b : Builder) (i : Nat) (v : Value) : (b.set i v).values.size = b.values.size :=
  Array.size_setIfInBounds

/-- A builder where a node has become something, which waits if it is a collection. -/
def put (b : Builder) (i : Nat) (v : Value) : Builder :=
  { b.set i v with
    waiting := if (b.cells.cell i).tag.isCollection then i :: b.waiting else b.waiting }

theorem built_set (hi : i < b.values.size) : (b.set i v).Built j ↔ j = i ∨ b.Built j := by
  rw [Built, getD_set hi]
  split_ifs with heq
  · exact ⟨fun _ => .inl heq, fun _ => rfl⟩
  · exact (or_iff_right heq).symm

theorem extends_set (hi : i < b.values.size) (v : Value) : b.Extends (b.set i v) := by
  refine ⟨fun j hj => (built_set hi).2 (.inr hj), .refl b.cells, ?_⟩
  rw [work, work, size_set]
  refine Nat.add_le_add_right (Finset.card_le_card fun j hj => ?_) _
  rw [Finset.mem_filter, built_set hi] at hj
  exact Finset.mem_filter.2 ⟨hj.1, fun hbuilt => hj.2 (.inr hbuilt)⟩

/-- A new value is less work, which a collection that waits makes up for. -/
theorem extends_put (hi : i < b.values.size) (hnot : ¬b.Built i) (v : Value) :
    b.Extends (b.put i v) := by
  refine ⟨(b.extends_set hi v).built, .refl b.cells, ?_⟩
  have hless : {j ∈ Finset.range (b.put i v).values.size | ¬(b.put i v).Built j}.card <
      {j ∈ Finset.range b.values.size | ¬b.Built j}.card := by
    refine Finset.card_lt_card ((Finset.ssubset_iff_of_subset fun j hj => ?_).2 ⟨i, ?_, ?_⟩)
    · obtain ⟨hlt, hbuilt⟩ := Finset.mem_filter.1 hj
      refine Finset.mem_filter.2 ⟨?_, fun hj => hbuilt ((built_set hi).2 (.inr hj))⟩
      rwa [← b.size_set i v]
    · exact Finset.mem_filter.2 ⟨Finset.mem_range.2 hi, hnot⟩
    · exact fun hmem => (Finset.mem_filter.1 hmem).2 ((built_set hi).2 (.inl rfl))
  have hwaiting : (b.put i v).waiting.length ≤ b.waiting.length + 1 := by
    rw [put]
    split_ifs <;> simp
  rw [work, work]
  omega

theorem mem_waiting_put {b : Builder} : j ∈ (b.put i v).waiting ↔
    j = i ∧ (b.cells.cell i).tag.isCollection = true ∨ j ∈ b.waiting := by
  rw [put]
  split_ifs with hcollection <;> simp [hcollection]

end Builder

namespace Building

open Builder

variable {n : Node} {b b' : Builder} {i : Nat} {v : Value} {e : Nat × Nat} {todo todo' : Entries}
  {busy : List Nat} {cells : Cells}

/-- What holds at every step, with some collections and some entries that are about to get their
values. -/
structure Invariant (n : Node) (busy : List Nat) (todo : Entries) (b : Builder) : Prop where
  evolves : n.cells.Evolves b.cells
  size_eq : b.values.size = n.cells.size
  starts : ∀ i v, b.values.getD i none = some v → Starts n i v
  filled : ∀ i, b.Built i → (n.cells.cell i).tag.isCollection = true →
    i ∈ b.waiting ++ busy ∨ b.Filled todo i
  waits : ∀ i ∈ b.waiting ++ busy, b.Built i ∧ (n.cells.cell i).tag.isCollection = true
  saves : Cells.Saves (b.Covers todo) n.cells b.cells

/-- A node becomes something. -/
theorem Invariant.put (h : Invariant n busy todo b) (hi : i < n.cells.size) (hnot : ¬b.Built i)
    (hv : Starts n i v) : Invariant n busy todo (b.put i v) := by
  have hlt : i < b.values.size := h.size_eq.symm ▸ hi
  have hextends := extends_put hlt hnot v
  have htag := isCollection_eq h.evolves
  have hwaiting : ∀ j, j ∈ (b.put i v).waiting ++ busy ↔
      j = i ∧ (b.cells.cell i).tag.isCollection = true ∨ j ∈ b.waiting ++ busy := by
    intro j
    rw [List.mem_append, mem_waiting_put, or_assoc, ← List.mem_append]
  refine ⟨h.evolves, (b.size_set i v).trans h.size_eq, fun j w hw => ?_, fun j hj hcollection => ?_,
    fun j hj => ?_, h.saves.mono fun _ => hextends.covers⟩
  · have hw' := (getD_set hlt v j).symm.trans hw
    split_ifs at hw' with heq
    · cases hw'
      exact heq ▸ hv
    · exact h.starts j w hw'
  · rw [hwaiting]
    rcases (built_set hlt).1 hj with rfl | hbuilt
    · exact .inl (.inl ⟨rfl, (htag j).trans hcollection⟩)
    · exact (h.filled j hbuilt hcollection).imp .inr (hextends.filled fun _ => id)
  · rw [hwaiting] at hj
    rcases hj with ⟨rfl, hcollection⟩ | hmem
    · exact ⟨(built_set hlt).2 (.inl rfl), (htag j).symm.trans hcollection⟩
    · exact (h.waits j hmem).imp_left (hextends.built j)

/-- Mappings have lost their merge keys. -/
theorem Invariant.recell (h : Invariant n busy todo b) (hevolves : b.cells.Evolves cells)
    (hcovers : ∀ e, b.Covers todo e → b.Covers todo' e)
    (hsaves : Cells.Saves (b.Covers todo') b.cells cells) :
    Invariant n busy todo' { b with cells } where
  evolves := h.evolves.trans hevolves
  size_eq := h.size_eq
  starts := h.starts
  filled i hi hcollection := by
    refine (h.filled i hi hcollection).imp_right ?_
    exact Extends.filled ⟨fun _ => id, hevolves, Nat.le_refl _⟩ hcovers
  waits := h.waits
  saves := (h.saves.mono hcovers).trans hsaves h.evolves hevolves

/-- A collection has got its parts. -/
theorem Invariant.set (h : Invariant n (i :: busy) todo b) (hfilled : b.Filled todo i) (v : Value) :
    Invariant n busy todo (b.set i v) := by
  obtain ⟨hbuilt, hcollection⟩ := h.waits i (List.mem_append_right _ List.mem_cons_self)
  have hlt := hbuilt.lt_size
  have hextends := b.extends_set hlt v
  have hsame : ∀ j, (b.set i v).Built j ↔ b.Built j := by
    intro j
    rw [built_set hlt]
    exact or_iff_right_of_imp fun heq => heq ▸ hbuilt
  refine ⟨h.evolves, (b.size_set i v).trans h.size_eq, fun j w hw => ?_, fun j hj hcollection => ?_,
    fun j hj => ?_, h.saves.mono fun _ => hextends.covers⟩
  · rw [getD_set hlt] at hw
    split_ifs at hw with heq
    · subst heq
      obtain ⟨u, hu⟩ := Option.isSome_iff_exists.1 hbuilt
      have hstarts := h.starts j u hu
      refine ⟨hstarts.not_merge, fun hfalse => ?_, hstarts.fits⟩
      rw [hcollection] at hfalse
      cases hfalse
    · exact h.starts j w hw
  · by_cases heq : j = i
    · exact .inr (hextends.filled (fun _ => id) (heq ▸ hfilled))
    · refine (h.filled j ((hsame j).1 hj) hcollection).imp (fun hmem => ?_)
        (hextends.filled fun _ => id)
      exact List.mem_append.2 ((List.mem_append.1 hmem).imp_right fun hbusy =>
        (List.mem_cons.1 hbusy).resolve_left heq)
  · refine (h.waits j ?_).imp_left (hsame j).2
    exact List.mem_append.2 ((List.mem_append.1 hj).imp_right (List.mem_cons_of_mem i))

/-! ## Steps -/

variable {α β : Type} {limits : Limits}

/-- A step with a property of its result and of the builder that it leaves. Every fault has its
reason in the document. -/
def Yields (limits : Limits) (n : Node) (b : Builder) (Q : α → Builder → Prop) (m : Building α) :
    Prop :=
  Gives (n.Explains limits) (fun p => b.Extends p.2 ∧ Q p.1 p.2) (m.run b)

namespace Yields

variable {Q Q' : α → Builder → Prop} {R : β → Builder → Prop} {m : Building α}

theorem pure {a : α} (h : Q a b) : Yields limits n b Q (pure a : Building α) := ⟨.refl b, h⟩

theorem bind {g : α → Building β} (h : Yields limits n b Q m)
    (hg : ∀ a b', b.Extends b' → Q a b' → Yields limits n b' R (g a)) :
    Yields limits n b R (m >>= g) := by
  rw [Yields, StateT.run_bind]
  refine Gives.bind h fun p hp => ?_
  exact (hg p.1 p.2 hp.1 hp.2).mono (fun _ => id) fun _ hq => ⟨hp.1.trans hq.1, hq.2⟩

theorem mono (h : Yields limits n b Q m) (hQ : ∀ a b', b.Extends b' → Q a b' → Q' a b') :
    Yields limits n b Q' m :=
  Gives.mono h (fun _ => id) fun _ hp => ⟨hp.1, hQ _ _ hp.1 hp.2⟩

theorem get : Yields limits n b (fun a b' => a = b ∧ b' = b) (get : Building Builder) :=
  ⟨.refl b, rfl, rfl⟩

theorem throw (p : Problem) (h : ¬n.cells.IsOrdinary) :
    Yields limits n b Q (throw (.malformed p) : Building α) := Node.Explains.of_problem p h

end Yields

/-- A step is taken for each of several nodes, where what is known of a node is not lost. -/
theorem yields_forM {I : Builder → Prop} {Q : Nat → Builder → Prop} {g : Nat → Building Unit}
    {items : List Nat} (hkeep : ∀ k b b', Q k b → b.Extends b' → Q k b')
    (hstep : ∀ k ∈ items, ∀ b, I b → Yields limits n b (fun _ b' => I b' ∧ Q k b') (g k))
    (hb : I b) :
    Yields limits n b (fun _ b' => I b' ∧ ∀ k ∈ items, Q k b') (items.forM g) := by
  induction items generalizing b with
  | nil => exact .pure ⟨hb, by simp⟩
  | cons k items ih =>
    obtain ⟨hk, hitems⟩ := List.forall_mem_cons.1 hstep
    change Yields limits n b _ (g k >>= fun _ => items.forM g)
    refine (hk b hb).bind fun _ b₁ _ h₁ => Yields.mono (ih hitems h₁.1) fun _ b₂ hextends h₂ => ?_
    exact ⟨h₂.1, List.forall_mem_cons.2 ⟨hkeep k b₁ b₂ h₁.2 hextends, h₂.2⟩⟩

theorem run_build_of_built (h : b.Built i) : (build limits i).run b = .ok ((), b) := by
  have hsome : (b.values.getD i none).isNone = false := by
    rw [← Option.not_isSome, Bool.not_eq_false']
    exact h
  rw [build, StateT.run_bind, StateT.run_get]
  simp only [pure_bind, hsome]
  rfl

theorem run_build (h : ¬b.Built i) :
    (build limits i).run b = (b.cells.start limits i).map fun v => ((), b.put i v) := by
  have hnone : (b.values.getD i none).isNone = true := by
    rw [← Option.not_isSome, Bool.not_eq_true']
    exact Bool.eq_false_iff.2 h
  rw [build, StateT.run_bind, StateT.run_get]
  simp only [pure_bind, hnone, if_true]
  cases b.cells.start limits i with
  | error f => rfl
  | ok v =>
    rw [Except.map, put]
    split_ifs <;> rfl

theorem yields_build (h : Invariant n busy todo b) (hi : i < n.cells.size) :
    Yields limits n b (fun _ b' => Invariant n busy todo b' ∧ b'.Built i) (build limits i) := by
  by_cases hbuilt : b.Built i
  · rw [Yields, run_build_of_built hbuilt]
    exact ⟨.refl b, h, hbuilt⟩
  · have hlt : i < b.values.size := h.size_eq.symm ▸ hi
    rw [Yields, run_build hbuilt]
    refine (gives_start h.evolves hi).map fun v hv => ⟨extends_put hlt hbuilt v, ?_⟩
    exact ⟨h.put hi hbuilt hv, (built_set hlt).2 (.inl rfl)⟩

/-- The key of an entry of an ordinary document becomes a scalar. -/
theorem Invariant.key (h : Invariant n busy todo b) (hordinary : n.cells.IsOrdinary) {k : Nat}
    (he : e ∈ n.cells.entries k) (hv : b.values.getD e.1 none = some v) : ∃ d, v = .scalar d := by
  have hlt := (lt_of_mem_entries (.refl n.cells) he).1
  have hkey := hordinary.key he
  cases hcontent : (n.cells.cell e.1).content with
  | scalar t =>
    have htag := hordinary.scalar hlt hcontent
    simp only [Scalar.IsOrdinaryTag, List.mem_cons, List.not_mem_nil, or_false] at htag
    refine (h.starts e.1 v hv).scalar ?_
    rcases htag with heq | heq | heq | heq | heq | heq <;> rw [heq] <;> rfl
  | sequence items =>
    rw [hcontent] at hkey
    cases hkey
  | mapping es =>
    rw [hcontent] at hkey
    cases hkey

/-- The key and the value of an entry become something. -/
theorem yields_entry (h : Invariant n busy (e :: todo) b) {k : Nat} (he : e ∈ n.cells.entries k) :
    Yields limits n b (fun _ b' => Invariant n busy todo b' ∧ b'.Covers [] e) (entry limits e) := by
  obtain ⟨hkey, hvalue⟩ := lt_of_mem_entries (.refl n.cells) he
  rw [entry]
  refine (yields_build h hkey).bind fun _ b₁ hextends₁ h₁ => Yields.get.bind fun a b₂ _ hget => ?_
  obtain ⟨rfl, rfl⟩ := hget
  obtain ⟨h₁, hbuilt₁⟩ := h₁
  obtain ⟨v, hv⟩ := Option.isSome_iff_exists.1 hbuilt₁
  have hrest : Yields limits n b₂ (fun _ b' => Invariant n busy todo b' ∧ b'.Covers [] e)
      (build limits e.2) := by
    refine (yields_build h₁ hvalue).mono fun _ b₃ hextends₃ h₃ => ?_
    have hboth : b₃.Built e.1 ∧ b₃.Built e.2 := ⟨hextends₃.built _ hbuilt₁, h₃.2⟩
    refine ⟨h₃.1.recell (.refl _) (fun d hd => ?_) (.refl _ _), .inr hboth⟩
    rcases hd with hmem | hd
    · exact (List.mem_cons.1 hmem).elim (fun heq => .inr (heq ▸ hboth)) .inl
    · exact .inr hd
  have hscalar : (∀ d, v ≠ .scalar d) → ¬n.cells.IsOrdinary := by
    intro hnot hordinary
    obtain ⟨d, hd⟩ := h₁.key hordinary he hv
    exact hnot d hd
  rw [hv]
  cases v with
  | scalar key => exact hrest.bind fun _ _ _ h => .pure h
  | list items => exact .throw _ (hscalar nofun)
  | mapping es => exact .throw _ (hscalar nofun)
  | set keys => exact .throw _ (hscalar nofun)
  | pairs count => exact .throw _ (hscalar nofun)

theorem yields_mapM_entry (es : Entries) (h : Invariant n busy es b)
    (hes : ∀ e ∈ es, ∃ k, e ∈ n.cells.entries k) :
    Yields limits n b (fun _ b' => Invariant n busy [] b' ∧ ∀ e ∈ es, b'.Covers [] e)
      (es.mapM (entry limits)) := by
  induction es generalizing b with
  | nil => exact .pure ⟨h, by simp⟩
  | cons e es ih =>
    obtain ⟨⟨k, hk⟩, hes⟩ := List.forall_mem_cons.1 hes
    rw [List.mapM_cons]
    refine (yields_entry h hk).bind fun _ b₁ _ h₁ => ?_
    refine (ih h₁.1 hes).bind fun _ b₂ hextends h₂ => .pure ⟨h₂.1, ?_⟩
    exact List.forall_mem_cons.2 ⟨hextends.covers h₁.2, h₂.2⟩

/-- The entries of a mapping become something, after what is merged into it has been put there. -/
theorem yields_entries (h : Invariant n busy [] b)
    (hordinary : n.cells.IsOrdinary → n.cells.isMapping i = true) :
    Yields limits n b (fun _ b' => Invariant n busy [] b' ∧ b'.Filled [] i) (entries limits i) := by
  rw [entries]
  refine Yields.get.bind fun a b₁ _ hget => ?_
  obtain ⟨rfl, rfl⟩ := hget
  by_cases hmapping : b₁.cells.isMapping i = true
  · rw [if_pos hmapping]
    have hflattens := Merging.flattens_flatten limits.merging i b₁.cells hmapping
    have hmerges := h.evolves.merges_le
    cases hrun : (Merging.flatten limits.merging i).run b₁.cells with
    | error f =>
      change n.Explains limits f
      rcases hflattens.error_of_eq hrun with ⟨⟨p, rfl⟩, hpos⟩ | ⟨rfl, hdeep⟩
      · refine .of_problem p fun hn => ?_
        rw [hn.merges_eq_zero] at hmerges
        omega
      · exact .of_goesDeep (.inl (Nat.le_trans hdeep hmerges))
    | ok p =>
      obtain ⟨⟨⟩, cells⟩ := p
      have hflat : Merging.Flattened i b₁.cells cells := hflattens.ok_of_eq hrun
      have hcells : Invariant n busy (cells.entries i) { b₁ with cells } := by
        refine h.recell hflat.evolves (fun e he => .inr (he.resolve_left List.not_mem_nil)) ?_
        exact hflat.saves.mono fun e he => .inl he
      change Gives _ _ (((cells.entries i).mapM (entry limits)).run { b₁ with cells })
      refine Gives.mono (yields_mapM_entry _ hcells (hcells.evolves.origin i)) (fun _ => id) ?_
      rintro ⟨es, b₂⟩ ⟨hextends, hinvariant, hcovers⟩
      have hextends₁ : b₁.Extends b₂ :=
        ⟨hextends.built, hflat.evolves.trans hextends.evolves, hextends.work_le⟩
      refine ⟨hextends₁, hinvariant, .inl ⟨?_, hextends.evolves.isFlat hflat.isFlat, ?_⟩⟩
      · exact (hextends₁.evolves.isMapping i).trans hmapping
      · rwa [hextends.evolves.entries_eq i hflat.isFlat]
  · rw [if_neg hmapping]
    exact .throw _ fun hn => hmapping ((h.evolves.isMapping i).trans (hordinary hn))

/-- The key and the value of a mapping with one entry become something. -/
theorem yields_pair (h : Invariant n busy [] b) (hordinary : ¬n.cells.IsOrdinary) :
    Yields limits n b (fun _ b' => Invariant n busy [] b' ∧ b'.cells.FlatWith (b'.Covers []) i)
      (pair limits i) := by
  rw [pair]
  refine Yields.get.bind fun a b₁ _ hget => ?_
  obtain ⟨rfl, rfl⟩ := hget
  split
  · rename_i k v hcontent
    have hentries := Cells.entries_of_content hcontent
    have hmem : (k, v) ∈ b₁.cells.entries i := hentries ▸ List.mem_singleton_self _
    obtain ⟨hk, hv⟩ := lt_of_mem_entries h.evolves hmem
    refine (yields_build h hk).bind fun _ b₂ hextends₂ h₂ => ?_
    refine (yields_build h₂.1 hv).mono fun _ b₃ hextends₃ h₃ => ⟨h₃.1, ?_⟩
    have hkey := hextends₃.built _ h₂.2
    have hflat : b₁.cells.IsFlat i := by
      obtain ⟨w, hw⟩ := Option.isSome_iff_exists.1 h₂.2
      have hmerge := mt h.evolves.tag_eq_merge_iff.1 (h₂.1.starts k w hw).not_merge
      rw [Cells.IsFlat, hentries]
      exact List.forall_mem_singleton.2 (decide_eq_false hmerge)
    have hevolves := hextends₂.evolves.trans hextends₃.evolves
    refine ⟨(hevolves.isMapping i).trans (Cells.isMapping_of_mem hmem), hevolves.isFlat hflat, ?_⟩
    rw [hevolves.entries_eq i hflat, hentries]
    exact List.forall_mem_singleton.2 (.inr ⟨hkey, h₃.2⟩)
  · exact .throw _ hordinary

theorem yields_items (hordinary : n.cells.IsOrdinary → ∃ items,
    (b.cells.cell i).content = .sequence items) :
    Yields limits n b (fun items b' => b' = b ∧ (b.cells.cell i).content = .sequence items)
      (items i) := by
  rw [items]
  refine Yields.get.bind fun a b₁ _ hget => ?_
  obtain ⟨rfl, rfl⟩ := hget
  split
  · rename_i items hitems
    exact .pure ⟨rfl, hitems⟩
  · rename_i hnot
    refine .throw _ fun hn => ?_
    obtain ⟨items, hitems⟩ := hordinary hn
    exact hnot items hitems

/-- A collection that has got its parts is done. -/
theorem yields_become (h : Invariant n (i :: busy) todo b) (hfilled : b.Filled todo i) (v : Value) :
    Yields limits n b (fun _ b' => Invariant n busy todo b') (become i v) := by
  obtain ⟨hbuilt, -⟩ := h.waits i (List.mem_append_right _ List.mem_cons_self)
  exact ⟨b.extends_set hbuilt.lt_size v, h.set hfilled v⟩

/-- A collection of an ordinary document is a sequence or a mapping. -/
theorem Invariant.collection (h : Invariant n (i :: busy) todo b) (hordinary : n.cells.IsOrdinary) :
    (b.cells.cell i).tag = .sequence ∧ (∃ items, (b.cells.cell i).content = .sequence items) ∨
      (b.cells.cell i).tag = .mapping ∧ n.cells.isMapping i = true := by
  obtain ⟨hbuilt, hcollection⟩ := h.waits i (List.mem_append_right _ List.mem_cons_self)
  have hlt : i < n.cells.size := h.size_eq ▸ hbuilt.lt_size
  have htag : (b.cells.cell i).tag = (n.cells.cell i).tag := by
    refine (h.evolves.tag i).resolve_right fun hdefault => ?_
    rw [hdefault.1] at hcollection
    cases hcollection
  rw [htag]
  refine (hordinary.collection hlt fun t hcontent => ?_).imp_left
    (And.imp_right fun ⟨items, hitems⟩ => ⟨items, ?_⟩)
  · have hmem := hordinary.scalar hlt hcontent
    simp only [Scalar.IsOrdinaryTag, List.mem_cons, List.not_mem_nil, or_false] at hmem
    rcases hmem with heq | heq | heq | heq | heq | heq <;> rw [heq] at hcollection <;>
      cases hcollection
  · rw [h.evolves.content i (by rw [Cells.isMapping, hitems]), hitems]

/-- The items of a sequence are nodes of the document. -/
theorem Invariant.lt_of_mem_items (h : Invariant n busy todo b) {items : List Nat}
    (hitems : (b.cells.cell i).content = .sequence items) {k : Nat} (hk : k ∈ items) :
    k < n.cells.size := by
  have hmapping : b.cells.isMapping i = false := by rw [Cells.isMapping, hitems]
  have hsame := h.evolves.content i ((h.evolves.isMapping i).symm.trans hmapping)
  rw [hitems] at hsame
  have hlt : i < n.cells.size := by
    by_contra hle
    rw [Cells.cell_of_le (Nat.not_lt.1 hle)] at hsame
    cases hsame
  refine n.lt_of_mem_parts hlt (i := k) ?_
  rwa [← hsame]

/-- A collection that is no sequence gets what becomes of its entries. -/
theorem yields_entries_become (h : Invariant n (i :: busy) [] b)
    (htag : (b.cells.cell i).tag ≠ .sequence) (value : List (Datum × Nat) → Value) :
    Yields limits n b (fun _ b' => Invariant n busy [] b')
      (entries limits i >>= fun es => become i (value es)) := by
  have hmapping : n.cells.IsOrdinary → n.cells.isMapping i = true := by
    intro hn
    exact ((h.collection hn).resolve_left fun hsequence => htag hsequence.1).2
  exact (yields_entries h hmapping).bind fun _ _ _ h' => yields_become h'.1 h'.2 _

/-- A collection gets its parts. -/
theorem yields_fill (h : Invariant n (i :: busy) [] b) :
    Yields limits n b (fun _ b' => Invariant n busy [] b') (fill limits i) := by
  rw [fill]
  refine Yields.get.bind fun a b₁ _ hget => ?_
  obtain ⟨rfl, rfl⟩ := hget
  have hfill : ∀ items b₂, b₁.Extends b₂ → (b₁.cells.cell i).content = .sequence items →
      (∀ k ∈ items, b₂.Built k ∨ b₂.cells.FlatWith (b₂.Covers []) k) → b₂.Filled [] i := by
    intro items b₂ hextends hitems hall
    refine .inr ⟨items, ?_, hall⟩
    rw [hextends.evolves.content i (by rw [Cells.isMapping, hitems]), hitems]
  split
  · rename_i htag
    exact yields_entries_become h (by rw [htag]; decide) _
  · rename_i htag
    exact yields_entries_become h (by rw [htag]; decide) _
  · rename_i htag
    refine (yields_items fun hn => ?_).bind fun items b₂ _ h₂ => ?_
    · refine ((h.collection hn).resolve_right ?_).2
      rw [htag]
      rintro ⟨⟨⟩, -⟩
    obtain ⟨rfl, hitems⟩ := h₂
    refine (yields_forM (Q := fun k b' => b'.Built k) (fun k _ _ hk hextends => hextends.built k hk)
      (fun k hk _ hb => yields_build hb (h.lt_of_mem_items hitems hk)) h).bind
      fun _ b₃ hextends h₃ => yields_become h₃.1 (hfill items b₃ hextends hitems ?_) _
    exact fun k hk => .inl (h₃.2 k hk)
  · rename_i hnotMapping _ hnotSequence
    have hn : ¬n.cells.IsOrdinary := fun hn =>
      (h.collection hn).elim (fun hs => hnotSequence hs.1) fun hm => hnotMapping hm.1
    refine (yields_items fun hn' => absurd hn' hn).bind fun items b₂ _ h₂ => ?_
    obtain ⟨rfl, hitems⟩ := h₂
    refine (yields_forM (Q := fun k b' => b'.cells.FlatWith (b'.Covers []) k)
      (fun k _ _ hk hextends => hextends.flatWith (fun _ => id) hk)
      (fun k _ _ hb => yields_pair hb hn) h).bind
      fun _ b₃ hextends h₃ => yields_become h₃.1 (hfill items b₃ hextends hitems ?_) _
    exact fun k hk => .inr (h₃.2 k hk)

theorem yields_forM_fill (batch : List Nat) (h : Invariant n batch [] b) :
    Yields limits n b (fun _ b' => Invariant n [] [] b') (batch.forM (fill limits)) := by
  induction batch generalizing b with
  | nil => exact .pure h
  | cons i batch ih =>
    change Yields limits n b _ (fill limits i >>= fun _ => batch.forM (fill limits))
    exact (yields_fill h).bind fun _ _ _ h₁ => ih h₁

/-- The collections that wait are about to get their parts. -/
theorem Invariant.batch (h : Invariant n [] [] b) :
    Invariant n b.waiting.reverse [] { b with waiting := [] } where
  evolves := h.evolves
  size_eq := h.size_eq
  starts := h.starts
  filled i hi hcollection := (h.filled i hi hcollection).imp_left fun hmem => by simpa using hmem
  waits i hi := h.waits i (by simpa using hi)
  saves := h.saves

/-- The collections that wait get their parts, until none waits any more. -/
theorem yields_finish (rounds : Nat) (h : Invariant n [] [] b)
    (hrounds : b.waiting ≠ [] → b.work ≤ rounds) :
    Yields limits n b (fun _ b' => Invariant n [] [] b' ∧ b'.waiting = [])
      (finish limits rounds) := by
  induction rounds generalizing b with
  | zero =>
    refine .pure ⟨h, List.length_eq_zero_iff.1 ?_⟩
    by_contra hwaiting
    have hwork := hrounds fun hnil => hwaiting (congrArg List.length hnil)
    rw [work] at hwork
    omega
  | succ rounds ih =>
    rw [finish]
    refine Yields.get.bind fun a b₁ _ hget => ?_
    obtain ⟨rfl, rfl⟩ := hget
    have hwork : ({ b₁ with waiting := [] } : Builder).work + b₁.waiting.length = b₁.work := rfl
    have hempty : b₁.Extends { b₁ with waiting := [] } := ⟨fun _ => id, .refl _, by omega⟩
    refine Yields.bind (Q := fun _ b' => b' = { b₁ with waiting := [] }) ⟨hempty, rfl⟩ ?_
    rintro ⟨⟩ _ - rfl
    by_cases hwaiting : b₁.waiting = []
    · have hbatch := h.batch
      rw [hwaiting] at hbatch ⊢
      exact ih hbatch fun hne => absurd rfl hne
    · refine (yields_forM_fill _ h.batch).bind fun _ b₂ hextends h₂ => ih h₂ fun _ => ?_
      have hpos := List.length_pos_iff.2 hwaiting
      have hle := hextends.work_le
      have hless := hrounds hwaiting
      omega

end Building

end ContainerDocs.Yaml

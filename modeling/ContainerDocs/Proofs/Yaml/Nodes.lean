import ContainerDocs.Proofs.Yaml.SingleTokens
import ContainerDocs.Yaml.Node.Reader

/-!
# The nodes that tokens make up

Where the tag of a node comes from: a tag that the document writes, the look of a text without
quotes, or the kind of the node. A reader of nodes refuses tokens that do not fit together, and
otherwise fails only with the fault that broke the tokens off, or when it goes too deep, for which
it needs many tokens.

## Main definitions

* `Node.scalars`, `Node.collections` — the scalars of a node with their tags, and the tags of its
  collections.
* `Comes`, `ComesOver` — a scalar and the tag of a collection as tokens can give them.
* `Reads` — what is known of a reader of tokens.

## Main statements

* `Reads.bind` — a reader after another one.
* `reads_all` — the readers of nodes.
* `Node.gives_ofTokens?` — the node of a document.
-/

namespace ContainerDocs.Yaml

/-! ## What a node is made of -/

namespace Node

mutual

def scalars : Node → List (Tag × Text)
  | .alias _ => []
  | .scalar _ tag text => [(tag, text)]
  | .sequence _ _ items => itemScalars items
  | .mapping _ _ entries => pairScalars entries

def itemScalars : List Node → List (Tag × Text)
  | [] => []
  | n :: rest => scalars n ++ itemScalars rest

def pairScalars : List (Node × Node) → List (Tag × Text)
  | [] => []
  | (k, v) :: rest => scalars k ++ scalars v ++ pairScalars rest

end

mutual

def collections : Node → List Tag
  | .alias _ | .scalar _ _ _ => []
  | .sequence _ tag items => tag :: itemCollections items
  | .mapping _ tag entries => tag :: pairCollections entries

def itemCollections : List Node → List Tag
  | [] => []
  | n :: rest => collections n ++ itemCollections rest

/-- The tags of the collections of keys and values, one after the other. -/
def pairCollections : List (Node × Node) → List Tag
  | [] => []
  | (k, v) :: rest => collections k ++ collections v ++ pairCollections rest

end

end Node

/-! ## Nodes as tokens can give them -/

variable {T : List Token} {D : Prop}

def Tagged (T : List Token) : Prop := ∃ t, .tag t ∈ T

/-- A scalar as tokens can give it: with a written tag, as the text without quotes that shows its
tag, as a text, or in place of nothing. -/
def Comes (T : List Token) (p : Tag × Text) : Prop :=
  Tagged T ∨ (.scalar true p.2 ∈ T ∧ p.1 = Scalar.tagOfPlain p.2) ∨ p.1 = .text ∨ p.1 = .null

def ComesOver (T : List Token) (tag : Tag) : Prop := Tagged T ∨ tag = .sequence ∨ tag = .mapping

def Written (T : List Token) (n : Node) : Prop :=
  (∀ p ∈ n.scalars, Comes T p) ∧ ∀ tag ∈ n.collections, ComesOver T tag

def WrittenItems (T : List Token) (items : List Node) : Prop :=
  (∀ p ∈ Node.itemScalars items, Comes T p) ∧ ∀ tag ∈ Node.itemCollections items, ComesOver T tag

def WrittenPairs (T : List Token) (entries : List (Node × Node)) : Prop :=
  (∀ p ∈ Node.pairScalars entries, Comes T p) ∧
    ∀ tag ∈ Node.pairCollections entries, ComesOver T tag

theorem written_nothing : Written T Reading.nothing :=
  ⟨by simp [Reading.nothing, Node.scalars, Comes], by simp [Reading.nothing, Node.collections]⟩

theorem written_scalar {anchor : Option String} {tag : Tag} {text : Text}
    (h : Comes T (tag, text)) : Written T (.scalar anchor tag text) :=
  ⟨by simpa [Node.scalars] using h, by simp [Node.collections]⟩

theorem WrittenItems.sequence {anchor : Option String} {tag : Tag} {items : List Node}
    (h : WrittenItems T items) (htag : ComesOver T tag) : Written T (.sequence anchor tag items) :=
  ⟨h.1, by simpa [Node.collections] using ⟨htag, h.2⟩⟩

theorem WrittenPairs.mapping {anchor : Option String} {tag : Tag} {entries : List (Node × Node)}
    (h : WrittenPairs T entries) (htag : ComesOver T tag) :
    Written T (.mapping anchor tag entries) :=
  ⟨h.1, by simpa [Node.collections] using ⟨htag, h.2⟩⟩

theorem writtenItems_nil : WrittenItems T [] :=
  ⟨by simp [Node.itemScalars], by simp [Node.itemCollections]⟩

theorem Written.cons {n : Node} {items : List Node} (hn : Written T n) (h : WrittenItems T items) :
    WrittenItems T (n :: items) :=
  ⟨List.forall_mem_append.2 ⟨hn.1, h.1⟩, List.forall_mem_append.2 ⟨hn.2, h.2⟩⟩

theorem writtenPairs_nil : WrittenPairs T [] :=
  ⟨by simp [Node.pairScalars], by simp [Node.pairCollections]⟩

theorem WrittenPairs.cons {k v : Node} {entries : List (Node × Node)} (hk : Written T k)
    (hv : Written T v) (h : WrittenPairs T entries) : WrittenPairs T ((k, v) :: entries) :=
  ⟨List.forall_mem_append.2 ⟨List.forall_mem_append.2 ⟨hk.1, hv.1⟩, h.1⟩,
    List.forall_mem_append.2 ⟨List.forall_mem_append.2 ⟨hk.2, hv.2⟩, h.2⟩⟩

/-! ## Readers of tokens -/

/-- A reader of some of the given tokens, with a property of its result. It fails on tokens that do
not fit together or where the tokens are broken off, and it goes too deep only under a condition. -/
def Reads {α : Type} (T : List Token) (D : Prop) (Q : α → Prop) (r : Reading α) : Prop :=
  ∀ s : ReadState, s.tokens ⊆ T →
    Gives (fun f => f.IsProblem ∨ .broken f ∈ T ∨ f = .tooDeep ∧ D)
      (fun p => Q p.1 ∧ p.2.tokens ⊆ T) (r.run s)

namespace Reads

variable {α β : Type} {Q : α → Prop} {R : β → Prop} {r r' : Reading α}

theorem pure {a : α} (h : Q a) : Reads T D Q (pure a : Reading α) := fun _ hs => ⟨h, hs⟩

theorem bind {g : α → Reading β} (h : Reads T D Q r) (hg : ∀ a, Q a → Reads T D R (g a)) :
    Reads T D R (r >>= g) := by
  intro s hs
  rw [StateT.run_bind]
  exact (h s hs).bind fun p hp => hg p.1 hp.1 p.2 hp.2

theorem mono {D' : Prop} (h : Reads T D Q r) (hD : D → D') : Reads T D' Q r :=
  fun s hs => (h s hs).mono (fun _ => Or.imp_right (Or.imp_right (And.imp_right hD))) fun _ => id

theorem ite {c : Prop} [Decidable c] (h : c → Reads T D Q r) (h' : ¬c → Reads T D Q r') :
    Reads T D Q (if c then r else r') := by
  split_ifs with hc
  · exact h hc
  · exact h' hc

theorem refuse (p : Problem) : Reads T D Q (Reading.refuse p : Reading α) :=
  fun _ _ => .inl ⟨p, rfl⟩

theorem get : Reads T D (fun s => s.tokens ⊆ T) (get : Reading ReadState) := fun _ hs => ⟨hs, hs⟩

theorem modify {g : ReadState → ReadState} (h : ∀ s, (g s).tokens ⊆ s.tokens) :
    Reads T D (fun _ => True) (modify g : Reading Unit) :=
  fun s hs => ⟨trivial, List.Subset.trans (h s) hs⟩

/-- The next token is one of the given ones, or there is none. -/
theorem peek : Reads T D (fun t => t ∈ T ∨ t = .streamEnd) Reading.peek := by
  refine get.bind fun s hs => pure ?_
  cases htokens : s.tokens with
  | nil => exact .inr rfl
  | cons t rest =>
    rw [htokens] at hs
    exact .inl (hs List.mem_cons_self)

theorem advance : Reads T D (fun _ => True) Reading.advance := modify fun _ => List.tail_subset _

theorem accept (t : Token) : Reads T D (fun _ => True) (Reading.accept t) :=
  peek.bind fun _ _ => ite (fun _ => advance.bind fun _ _ => pure trivial) fun _ => pure trivial

theorem unexpected : Reads T D Q (Reading.unexpected : Reading α) := by
  refine peek.bind fun t ht => ?_
  split
  · exact fun _ _ => .inr (.inl (ht.resolve_right (by simp)))
  · exact refuse _

theorem expect (t : Token) : Reads T D (fun _ => True) (Reading.expect t) :=
  (accept t).bind fun _ _ => ite (fun _ => unexpected) fun _ => pure trivial

end Reads

namespace Reading

/-! ## Properties -/

theorem reads_uri (t : WrittenTag) : Reads T D (fun _ => True) (uri t) := by
  rw [uri]
  split
  · exact .pure trivial
  · refine Reads.get.bind fun s _ => ?_
    split
    · exact .pure trivial
    · exact .refuse _

theorem reads_remember (anchor : Option String) : Reads T D (fun _ => True) (remember anchor) := by
  rw [remember.eq_def]
  split
  · exact .pure trivial
  · exact Reads.get.bind fun s _ => Reads.ite (fun _ => .refuse _) fun _ =>
      .modify fun _ => List.Subset.refl _

theorem reads_anchor? : Reads T D (fun _ => True) anchor? := by
  refine Reads.peek.bind fun t _ => ?_
  split
  · exact Reads.advance.bind fun _ _ => .pure trivial
  · exact .pure trivial

theorem reads_tag? : Reads T D (fun t => t = none ∨ Tagged T) tag? := by
  refine Reads.peek.bind fun t ht => ?_
  split
  · exact Reads.advance.bind fun _ _ => .pure (.inr ⟨_, ht.resolve_right (by simp)⟩)
  · exact .pure (.inl rfl)

/-- An address is given only by a written tag. -/
theorem reads_properties : Reads T D (fun p => p.2 = none ∨ Tagged T) properties := by
  refine reads_anchor?.bind fun early _ => reads_tag?.bind fun tag htag => ?_
  cases tag with
  | none =>
    have hend : ∀ anchor, Reads T D (fun p : Option String × Option String => p.2 = none ∨ Tagged T)
        (pure (anchor, none)) := by
      intro anchor
      exact .pure (.inl rfl)
    exact Reads.ite (fun _ => reads_anchor?.bind fun _ _ => hend _) fun _ => hend _
  | some t =>
    have hend : ∀ late : Option String, Reads T D (fun p => p.2 = none ∨ Tagged T)
        (do return (early <|> late, some (← uri t))) :=
      fun late => (reads_uri t).bind fun _ _ => .pure (.inr (htag.resolve_left (by simp)))
    exact Reads.ite (fun _ => reads_anchor?.bind fun _ _ => hend _) fun _ => hend _

/-! ## Nodes -/

theorem comes_scalarTag {address : Option String} (h : address = none ∨ Tagged T) (plain : Bool)
    {text : Text} (htoken : plain = true → .scalar true text ∈ T ∨ text = []) :
    Comes T (scalarTag address plain text, text) := by
  rcases h with rfl | h
  · cases plain with
    | false => exact .inr (.inr (.inl rfl))
    | true =>
      rcases htoken rfl with htoken | rfl
      · exact .inr (.inl ⟨htoken, rfl⟩)
      · exact .inr (.inr (.inr (by decide)))
  · exact .inl h

theorem comesOver_collectionTag {address : Option String} (h : address = none ∨ Tagged T)
    {usual : Tag} (husual : usual = .sequence ∨ usual = .mapping) :
    ComesOver T (collectionTag address usual) := by
  rcases h with rfl | h
  · exact .inr husual
  · exact .inl h

/-- What is known of the readers of nodes with a number of steps and room for a number of
collections. -/
structure ReadsAll (T : List Token) (D : Prop) (fuel room : Nat) : Prop where
  node : ∀ position, Reads T D (Written T) (node fuel room position)
  items : Reads T D (WrittenItems T) (items fuel room)
  looseItems : Reads T D (WrittenItems T) (looseItems fuel room)
  pairs : Reads T D (WrittenPairs T) (pairs fuel room)
  flowPair : ∀ closing,
    Reads T D (fun p => Written T p.1 ∧ Written T p.2) (flowPair fuel room closing)
  flowItems : ∀ first, Reads T D (WrittenItems T) (flowItems fuel room first)
  flowPairs : ∀ first, Reads T D (WrittenPairs T) (flowPairs fuel room first)

theorem ReadsAll.mono {D' : Prop} {fuel room : Nat} (h : ReadsAll T D fuel room) (hD : D → D') :
    ReadsAll T D' fuel room where
  node position := (h.node position).mono hD
  items := h.items.mono hD
  looseItems := h.looseItems.mono hD
  pairs := h.pairs.mono hD
  flowPair closing := (h.flowPair closing).mono hD
  flowItems first := (h.flowItems first).mono hD
  flowPairs first := (h.flowPairs first).mono hD

/-- Every collection takes a step, so a reader that goes too deep has had more steps than room. -/
theorem reads_inside {α : Type} {Q : α → Prop} {r : Nat → Reading α} {fuel : Nat}
    (h : ∀ n, Reads T (n < fuel) Q (r n)) (room : Nat) :
    Reads T (room < fuel + 1) Q (inside room r) := by
  cases room with
  | zero => exact fun _ _ => .inr (.inr ⟨rfl, Nat.succ_pos fuel⟩)
  | succ n => exact (h n).mono Nat.succ_lt_succ

variable {fuel room : Nat}

theorem reads_node_succ (h : ∀ n, ReadsAll T (n < fuel) fuel n) (room : Nat) (position : Position) :
    Reads T (room < fuel + 1) (Written T) (Reading.node (fuel + 1) room position) := by
  rw [Reading.node]
  refine Reads.peek.bind fun first _ => ?_
  split
  · refine Reads.advance.bind fun _ _ => Reads.get.bind fun s _ => ?_
    exact Reads.ite (fun _ => .pure ⟨by simp [Node.scalars], by simp [Node.collections]⟩)
      fun _ => .refuse _
  · refine reads_properties.bind fun p hp => ?_
    obtain ⟨anchor, address⟩ := p
    refine Reads.peek.bind fun next hnext => ?_
    have hsequence := comesOver_collectionTag hp (.inl rfl)
    have hmapping := comesOver_collectionTag hp (.inr rfl)
    split
    · have htoken := hnext.resolve_right (by simp)
      refine Reads.advance.bind fun _ _ => (reads_remember anchor).bind fun _ _ => .pure ?_
      exact written_scalar (comes_scalarTag hp _ fun hplain => .inl (hplain ▸ htoken))
    · refine Reads.advance.bind fun _ _ => (reads_remember anchor).bind fun _ _ => ?_
      exact (reads_inside (fun n => (h n).flowItems true) room).bind
        fun _ hitems => .pure (hitems.sequence hsequence)
    · refine Reads.advance.bind fun _ _ => (reads_remember anchor).bind fun _ _ => ?_
      exact (reads_inside (fun n => (h n).flowPairs true) room).bind
        fun _ hpairs => .pure (hpairs.mapping hmapping)
    · refine Reads.ite (fun _ => (reads_remember anchor).bind fun _ _ => ?_) fun _ => ?_
      · exact (reads_inside (fun n => (h n).looseItems) room).bind
          fun _ hitems => .pure (hitems.sequence hsequence)
      refine Reads.ite (fun _ => Reads.advance.bind fun _ _ =>
        (reads_remember anchor).bind fun _ _ => ?_) fun _ => ?_
      · exact (reads_inside (fun n => (h n).items) room).bind
          fun _ hitems => .pure (hitems.sequence hsequence)
      refine Reads.ite (fun _ => Reads.advance.bind fun _ _ =>
        (reads_remember anchor).bind fun _ _ => ?_) fun _ => ?_
      · exact (reads_inside (fun n => (h n).pairs) room).bind
          fun _ hpairs => .pure (hpairs.mapping hmapping)
      refine Reads.ite (fun _ => (reads_remember anchor).bind fun _ _ => .pure ?_)
        fun _ => .unexpected
      exact written_scalar (comes_scalarTag hp true fun _ => .inr rfl)

theorem ReadsAll.items_succ (h : ReadsAll T D fuel room) :
    Reads T D (WrittenItems T) (Reading.items (fuel + 1) room) := by
  rw [Reading.items]
  refine (Reads.accept _).bind fun _ _ => Reads.ite (fun _ => ?_) fun _ => ?_
  · refine Reads.peek.bind fun next _ => ?_
    have hrest : ∀ item, Written T item →
        Reads T D (WrittenItems T) (do return item :: (← Reading.items fuel room)) :=
      fun item hitem => h.items.bind fun _ hitems => .pure (hitem.cons hitems)
    exact Reads.ite (fun _ => hrest _ written_nothing) fun _ => (h.node _).bind hrest
  · exact (Reads.expect _).bind fun _ _ => .pure writtenItems_nil

theorem ReadsAll.looseItems_succ (h : ReadsAll T D fuel room) :
    Reads T D (WrittenItems T) (Reading.looseItems (fuel + 1) room) := by
  rw [Reading.looseItems]
  refine (Reads.accept _).bind fun _ _ => Reads.ite (fun _ => ?_) fun _ => .pure writtenItems_nil
  refine Reads.peek.bind fun next _ => ?_
  have hrest : ∀ item, Written T item →
      Reads T D (WrittenItems T) (do return item :: (← Reading.looseItems fuel room)) :=
    fun item hitem => h.looseItems.bind fun _ hitems => .pure (hitem.cons hitems)
  exact Reads.ite (fun _ => hrest _ written_nothing) fun _ => (h.node _).bind hrest

theorem ReadsAll.pairs_succ (h : ReadsAll T D fuel room) :
    Reads T D (WrittenPairs T) (Reading.pairs (fuel + 1) room) := by
  rw [Reading.pairs]
  refine (Reads.accept _).bind fun _ _ => Reads.ite (fun _ => ?_) fun _ => ?_
  · have hrest : ∀ k, Written T k → ∀ v, Written T v →
        Reads T D (WrittenPairs T) (do return (k, v) :: (← Reading.pairs fuel room)) :=
      fun k hk v hv => h.pairs.bind fun _ hpairs => .pure (hpairs.cons hk hv)
    have hvalue : ∀ k, Written T k → Reads T D (WrittenPairs T) (do
        let v ←
          if ← Reading.accept .value then
            if endsPart (← Reading.peek) then pure nothing else Reading.node fuel room .entry
          else pure nothing
        return (k, v) :: (← Reading.pairs fuel room)) := by
      intro k hk
      refine (Reads.accept _).bind fun _ _ => Reads.ite (fun _ => ?_)
        fun _ => hrest k hk _ written_nothing
      exact Reads.peek.bind fun _ _ => Reads.ite (fun _ => hrest k hk _ written_nothing)
        fun _ => (h.node _).bind (hrest k hk)
    exact Reads.peek.bind fun _ _ => Reads.ite (fun _ => hvalue _ written_nothing)
      fun _ => (h.node _).bind hvalue
  · exact (Reads.expect _).bind fun _ _ => .pure writtenPairs_nil

theorem ReadsAll.flowPair_succ (h : ReadsAll T D fuel room) (closing : Token) :
    Reads T D (fun p => Written T p.1 ∧ Written T p.2)
      (Reading.flowPair (fuel + 1) room closing) := by
  rw [Reading.flowPair]
  refine Reads.peek.bind fun next _ => ?_
  have hvalue : ∀ k, Written T k → Reads T D (fun p => Written T p.1 ∧ Written T p.2) (do
      let v ←
        if ← Reading.accept .value then
          if endsFlowPart closing (← Reading.peek) then pure nothing
          else Reading.node fuel room .flow
        else pure nothing
      return (k, v)) := by
    intro k hk
    refine (Reads.accept _).bind fun _ _ => Reads.ite (fun _ => ?_)
      fun _ => .pure ⟨hk, written_nothing⟩
    exact Reads.peek.bind fun _ _ => Reads.ite (fun _ => .pure ⟨hk, written_nothing⟩)
      fun _ => (h.node _).bind fun v hv => .pure ⟨hk, hv⟩
  exact Reads.ite (fun _ => hvalue _ written_nothing) fun _ => (h.node _).bind hvalue

theorem reads_flowItems_succ (h : ∀ n, ReadsAll T (n < fuel) fuel n) (room : Nat) (first : Bool) :
    Reads T (room < fuel + 1) (WrittenItems T) (Reading.flowItems (fuel + 1) room first) := by
  have hall := (h room).mono Nat.lt_succ_of_lt
  have hrest : ∀ item, Written T item → Reads T (room < fuel + 1) (WrittenItems T)
      (do return item :: (← Reading.flowItems fuel room false)) :=
    fun item hitem => (hall.flowItems false).bind fun _ hitems => .pure (hitem.cons hitems)
  rw [Reading.flowItems]
  refine (Reads.accept _).bind fun _ _ => Reads.ite (fun _ => .pure writtenItems_nil) fun _ => ?_
  have hitem : Reads T (room < fuel + 1) (WrittenItems T) (do
      if ← Reading.accept .closeBracket then return []
      else
        let item ←
          if ← Reading.accept .key then
            let pair ← inside room fun room => Reading.flowPair fuel room .closeBracket
            pure (.mapping none .mapping [pair])
          else Reading.node fuel room .flow
        return item :: (← Reading.flowItems fuel room false)) := by
    refine (Reads.accept _).bind fun _ _ => Reads.ite (fun _ => .pure writtenItems_nil) fun _ => ?_
    refine (Reads.accept _).bind fun _ _ => Reads.ite (fun _ => ?_)
      fun _ => (hall.node _).bind hrest
    refine (reads_inside (fun n => (h n).flowPair _) room).bind fun p hp => hrest _ ?_
    exact (WrittenPairs.cons hp.1 hp.2 writtenPairs_nil).mapping (.inr (.inr rfl))
  exact Reads.ite (fun _ => (Reads.expect _).bind fun _ _ => hitem) fun _ => hitem

theorem ReadsAll.flowPairs_succ (h : ReadsAll T D fuel room) (first : Bool) :
    Reads T D (WrittenPairs T) (Reading.flowPairs (fuel + 1) room first) := by
  have hrest : ∀ p : Node × Node, Written T p.1 ∧ Written T p.2 →
      Reads T D (WrittenPairs T) (do return p :: (← Reading.flowPairs fuel room false)) :=
    fun p hp => (h.flowPairs false).bind fun _ hpairs => .pure (hpairs.cons hp.1 hp.2)
  rw [Reading.flowPairs]
  refine (Reads.accept _).bind fun _ _ => Reads.ite (fun _ => .pure writtenPairs_nil) fun _ => ?_
  have hpair : Reads T D (WrittenPairs T) (do
      if ← Reading.accept .closeBrace then return []
      else
        let pair ←
          if ← Reading.accept .key then Reading.flowPair fuel room .closeBrace
          else do pure (← Reading.node fuel room .flow, nothing)
        return pair :: (← Reading.flowPairs fuel room false)) := by
    refine (Reads.accept _).bind fun _ _ => Reads.ite (fun _ => .pure writtenPairs_nil) fun _ => ?_
    refine (Reads.accept _).bind fun _ _ => Reads.ite (fun _ => (h.flowPair _).bind hrest)
      fun _ => ?_
    exact (h.node _).bind fun k hk => hrest (k, nothing) ⟨hk, written_nothing⟩
  exact Reads.ite (fun _ => (Reads.expect _).bind fun _ _ => hpair) fun _ => hpair

/-- The readers of nodes give nodes as the tokens can give them. -/
theorem reads_all (fuel room : Nat) : ReadsAll T (room < fuel) fuel room := by
  induction fuel generalizing room with
  | zero =>
    exact ⟨fun _ => .unexpected, .unexpected, .unexpected, .unexpected, fun _ => .unexpected,
      fun _ => .unexpected, fun _ => .unexpected⟩
  | succ fuel ih =>
    have hroom := (ih room).mono Nat.lt_succ_of_lt
    exact ⟨reads_node_succ ih room, hroom.items_succ, hroom.looseItems_succ, hroom.pairs_succ,
      hroom.flowPair_succ, reads_flowItems_succ ih room, hroom.flowPairs_succ⟩

/-! ## Documents -/

theorem reads_follow (seen : Bool × List (String × String)) (d : Directive) :
    Reads T D (fun _ => True) (follow seen d) := by
  cases d with
  | version major minor =>
    exact Reads.ite (fun _ => .refuse _) fun _ =>
      Reads.ite (fun _ => .refuse _) fun _ => .pure trivial
  | handle name expansion => exact Reads.ite (fun _ => .refuse _) fun _ => .pure trivial
  | unknown => exact .pure trivial

theorem reads_directives (fuel : Nat) (seen : Bool × List (String × String)) :
    Reads T D (fun _ => True) (directives fuel seen) := by
  induction fuel generalizing seen with
  | zero => exact .unexpected
  | succ fuel ih =>
    rw [directives]
    refine Reads.peek.bind fun next _ => ?_
    split
    · exact Reads.advance.bind fun _ _ => (reads_follow _ _).bind fun _ _ => ih _
    · exact .pure trivial

theorem reads_skipEnds (fuel : Nat) : Reads T D (fun _ => True) (skipEnds fuel) := by
  induction fuel with
  | zero => exact .unexpected
  | succ fuel ih =>
    exact (Reads.accept _).bind fun _ _ => Reads.ite (fun _ => ih) fun _ => .pure trivial

/-- The node of a document is as the tokens can give it. -/
theorem reads_document (fuel room : Nat) : Reads T (room < fuel)
    (fun n => ∀ root, n = some root → Written T root) (document fuel room) := by
  refine Reads.peek.bind fun next _ => Reads.ite (fun _ => .pure (by simp)) fun _ => ?_
  extract_lets finish
  have hfinish : ∀ root, Written T root →
      Reads T (room < fuel) (fun n => ∀ root, n = some root → Written T root) (finish root) := by
    intro root hroot
    refine (reads_skipEnds fuel).bind fun _ _ => Reads.peek.bind fun last _ => ?_
    split
    · refine .pure ?_
      rintro _ ⟨⟩
      exact hroot
    · exact .refuse _
    · exact .unexpected
  refine Reads.ite (fun _ => ?_) fun _ => ?_
  · refine Reads.bind (.modify fun s => ?_)
      fun _ _ => ((reads_all fuel room).node .block).bind hfinish
    exact List.Subset.refl _
  · refine (reads_directives fuel _).bind fun handles _ => ?_
    refine Reads.bind (.modify fun s => ?_) fun _ _ => (Reads.expect _).bind fun _ _ => ?_
    · exact List.Subset.refl _
    exact Reads.peek.bind fun first _ => Reads.ite (fun _ => hfinish _ written_nothing)
      fun _ => ((reads_all fuel room).node .block).bind hfinish

end Reading

/-- The tokens of a document are refused, broken off, too many in each other, or make up a node as
they can give it. -/
theorem Node.gives_ofTokens? (room : Nat) (tokens : List Token) :
    Gives (fun f => f.IsProblem ∨ .broken f ∈ tokens ∨ f = .tooDeep ∧ room < 3 * tokens.length + 3)
      (fun n => ∀ root, n = some root → Written tokens root) (Node.ofTokens? room tokens) :=
  (Reading.reads_document _ room ⟨tokens, [], []⟩ (List.Subset.refl _)).map fun _ hp => hp.1

end ContainerDocs.Yaml

import ContainerDocs.Proofs.Report.Evaluate
import ContainerDocs.Proofs.Template.Structure

/-!
# What parts of templates print

A template that does not escape prints a text that is put together from the texts of its parts. Each
kind of part has a rule, so what a long template prints is read off its segments.

## Main definitions

* `Scope.Prints` — segments print a text wherever certain data is seen.
* `Scope.PrintsNodes` — the same for nodes in one scope.

## Main statements

* `Scope.Prints.out`, `Scope.Prints.needed`, `Scope.Prints.cutCond`, `Scope.Prints.cutChoice`,
  `Scope.Prints.plainLoop`, `Scope.Prints.rows` — what the parts of a template print.
-/

namespace ContainerDocs

theorem Text.ofString_empty_append (t : Text) : ofString "" ++ t = t := by
  rw [ofString, String.toList_empty, ofChars, List.map_nil, List.nil_append]

theorem Text.append_ofString_empty (t : Text) : t ++ ofString "" = t := by
  rw [ofString, String.toList_empty, ofChars, List.map_nil, List.append_nil]

namespace Scope

open Segment Parts

/-! ## Nodes -/

theorem runAll_append_eq (escaping : Bool) (s : Scope) (nodes nodes' : List Node) :
    runAll escaping s (nodes ++ nodes') = (runAll escaping s nodes).bind fun p =>
      (runAll escaping p.1 nodes').map fun q => (q.1, p.2 ++ q.2) := by
  induction nodes generalizing s with
  | nil =>
    rw [List.nil_append, runAll_nil, Except.bind]
    cases runAll escaping s nodes' <;> rfl
  | cons node nodes ih =>
    rw [List.cons_append, runAll, runAll]
    cases run escaping s node with
    | error f => rfl
    | ok p =>
      rw [ok_bind, ok_bind]
      dsimp only
      rw [ih]
      cases runAll escaping p.1 nodes with
      | error f => rfl
      | ok q =>
        change ((runAll escaping q.1 nodes').map _).bind _ = (runAll escaping q.1 nodes').map _
        cases runAll escaping q.1 nodes' with
        | error f => rfl
        | ok r => simp [Except.map, Except.bind, pure, Except.pure]

/-- The nodes print a text and leave the scope as it is, once there is a value that they need. -/
def PrintsNodes {ω : Type} (s : Scope) (need : Except Fault ω) (nodes : List Node)
    (text : ω → Text) : Prop :=
  runAll false s nodes = need.map fun w => (s, text w)

namespace PrintsNodes

variable {ω : Type} {s : Scope} {need : Except Fault ω} {nodes nodes' : List Node} {t u : Text}
  {text : ω → Text}

theorem of_runAll (h : runAll false s nodes = .ok (s, t)) :
    PrintsNodes s (.ok ()) nodes fun _ => t := h

theorem ofText (u : String) : PrintsNodes s (.ok ()) (Node.ofText u) fun _ => u :=
  of_runAll (runAll_ofText ..)

theorem append (h : PrintsNodes s (.ok ()) nodes fun _ => t) (h' : PrintsNodes s need nodes' text) :
    PrintsNodes s need (nodes ++ nodes') fun w => t ++ text w := by
  rw [PrintsNodes, runAll_append_eq, h]
  change (runAll false s nodes').map _ = _
  rw [h']
  cases need <;> rfl

theorem append_last (h : PrintsNodes s need nodes text)
    (h' : PrintsNodes s (.ok ()) nodes' fun _ => u) :
    PrintsNodes s need (nodes ++ nodes') fun w => text w ++ u := by
  rw [PrintsNodes, runAll_append_eq, h]
  cases need with
  | error f => rfl
  | ok w => exact congrArg (Except.map _) h'

/-- A condition prints one of two branches; `c` tells when it fails. -/
theorem cond {c : Bool} {test : Expr} {v : Value} {yes no : List Node}
    (htest : eval false s test = .ok v) (htruth : v.isTrue = !c)
    (hyes : PrintsNodes s (.ok ()) yes fun _ => t) (hno : PrintsNodes s (.ok ()) no fun _ => u) :
    PrintsNodes s (.ok ()) [.cond test yes no] fun _ => if c then u else t := by
  have hbranch : runAll false s (if v.isTrue then yes else no) = .ok (s, if c then u else t) := by
    rw [htruth]
    cases c
    · exact hyes
    · exact hno
  have hcond := runAll_cond htest hbranch (runAll_nil ..)
  rwa [List.append_nil] at hcond

/-- A condition that holds exactly if there is data, which may fail to have values that are needed
inside. -/
theorem given {κ : Type} {test : Expr} {v : Value} {yes : List Node} {data : Option κ}
    {need : κ → Except Fault ω} {text : κ → ω → Text} (default : ω)
    (htest : eval false s test = .ok v) (htruth : v.isTrue = data.isSome)
    (hyes : ∀ k ∈ data, PrintsNodes s (need k) yes (text k)) :
    PrintsNodes s (data.elim (.ok default) need) [.cond test yes []]
      fun w => data.elim [] (text · w) := by
  rw [PrintsNodes, runAll, run, htest, ok_bind, htruth]
  cases data with
  | none => rfl
  | some k =>
    have hk := hyes k rfl
    rw [PrintsNodes] at hk
    simp only [Option.isSome_some, if_true, Option.elim_some, hk]
    cases need k with
    | error f => rfl
    | ok w => exact congrArg (fun t => Except.ok (s, t)) (List.append_nil _)

end PrintsNodes

/-! ## Rounds of loops -/

/-- A round of a loop: the data outside, the element and its place. -/
structure Round (ι α : Type) where
  outer : ι
  element : α
  index : Nat
  length : Nat

def SeesRound {ι α : Type} (Sees : ι → Scope → Prop) (name : String) (value : α → Value)
    (r : Round ι α) (s : Scope) : Prop :=
  ∃ s₀, Sees r.outer s₀ ∧ s = s₀.round name (.position r.index r.length) (value r.element)

theorem SeesRound.find {ι α : Type} {Sees : ι → Scope → Prop} {name : String} {value : α → Value}
    {r : Round ι α} {s : Scope} (h : SeesRound Sees name value r s) :
    s.find name = value r.element := by
  obtain ⟨s₀, -, rfl⟩ := h
  exact find_round ..

/-- What a name stands for outside a loop, it stands for in its rounds. -/
theorem SeesRound.find_of_ne {ι α : Type} {Sees : ι → Scope → Prop} {name : String}
    {value : α → Value} {r : Round ι α} {s : Scope} (h : SeesRound Sees name value r s)
    (other : String) (hne : other ≠ name) (hloop : other ≠ "loop") :
    ∃ s₀, Sees r.outer s₀ ∧ s.find other = s₀.find other := by
  obtain ⟨s₀, hs₀, rfl⟩ := h
  exact ⟨s₀, hs₀, find_round_of_ne _ _ _ hne hloop⟩

theorem SeesRound.mono {ι α : Type} {Sees Sees' : ι → Scope → Prop} {name : String}
    {value : α → Value} {r : Round ι α} {s : Scope} (h : SeesRound Sees name value r s)
    (hsees : ∀ i s, Sees i s → Sees' i s) : SeesRound Sees' name value r s := by
  obtain ⟨s₀, hs₀, rfl⟩ := h
  exact ⟨s₀, hsees _ _ hs₀, rfl⟩

theorem SeesRound.find_loop {ι α : Type} {Sees : ι → Scope → Prop} {name : String}
    {value : α → Value} {r : Round ι α} {s : Scope} (h : SeesRound Sees name value r s)
    (hname : name ≠ "loop") : s.find "loop" = .position r.index r.length := by
  obtain ⟨s₀, -, rfl⟩ := h
  exact find_round_loop _ _ _ hname

theorem rounds_zipIdx {α : Type} {round : Value → Value → Except Fault Text} {value : α → Value}
    {length : Nat} {as : List α} (text : α → Nat → Text)
    (h : ∀ a ∈ as, ∀ index, round (.position index length) (value a) = .ok (text a index))
    (index : Nat) : rounds round length index (as.map value) =
      .ok ((as.zipIdx index).flatMap fun p => text p.1 p.2) := by
  induction as generalizing index with
  | nil => rfl
  | cons a as ih =>
    obtain ⟨ha, has⟩ := List.forall_mem_cons.1 h
    rw [List.map_cons, rounds, ha, ok_bind, ih has, List.zipIdx_cons, List.flatMap_cons]
    rfl

/-- The rounds of a loop print a text for each element, once each element has a value that it
needs. -/
theorem rounds_mapM {α ω : Type} {round : Value → Value → Except Fault Text} {value : α → Value}
    {length : Nat} {need : α → Except Fault ω} (text : α → ω → Text) {as : List α}
    (h : ∀ a ∈ as, ∀ index, round (.position index length) (value a) = (need a).map (text a))
    (index : Nat) : rounds round length index (as.map value) =
      (as.mapM need).map fun ws => (as.zipWith text ws).flatten := by
  induction as generalizing index with
  | nil => rfl
  | cons a as ih =>
    obtain ⟨ha, has⟩ := List.forall_mem_cons.1 h
    rw [List.map_cons, rounds, ha, ih has, List.mapM_cons]
    cases need a with
    | error f => rfl
    | ok w => cases as.mapM need <;> rfl

/-! ## Segments -/

/-- In every scope where data is seen, the segments print a text that depends on the data and on
values that the data may fail to have. The other arguments tell what stands around the segments, as
for `Segment.Stands`. -/
def Prints {ι ω : Type} (Sees : ι → Scope → Prop) (need : ι → Except Fault ω) (left : Bool)
    (front : String) (right : Bool) (segments : List Segment) (text : ι → ω → Text) : Prop :=
  ∃ nodes, Stands left front right segments nodes ∧
    ∀ i s, Sees i s → PrintsNodes s (need i) nodes (text i)

abbrev PrintsAll {ι : Type} (Sees : ι → Scope → Prop) (left : Bool) (front : String) (right : Bool)
    (segments : List Segment) (text : ι → Unit → Text) : Prop :=
  Prints Sees (fun _ => .ok ()) left front right segments text

namespace Prints

variable {ι κ α ω : Type} {Sees : ι → Scope → Prop} {Sees' : κ → Scope → Prop}
  {need : ι → Except Fault ω} {left right : Bool} {front cut name list : String}
  {body other rest segments : List Segment} {test source e : Expr} {text text' : ι → ω → Text}
  {inner no last : ι → Unit → Text}

/-- Another form of the text, for the values that are needed. -/
theorem of_eq_of_need (h : Prints Sees need left front right segments text)
    (heq : ∀ i w, need i = .ok w → text i w = text' i w) :
    Prints Sees need left front right segments text' := by
  obtain ⟨nodes, hnodes, hrun⟩ := h
  refine ⟨nodes, hnodes, fun i s hs => ?_⟩
  rw [PrintsNodes, hrun i s hs]
  cases hneed : need i with
  | error f => rfl
  | ok w => exact congrArg (fun t => Except.ok (s, t)) (heq i w hneed)

theorem of_eq (h : Prints Sees need left front right segments text)
    (heq : ∀ i w, text i w = text' i w) : Prints Sees need left front right segments text' :=
  h.of_eq_of_need fun i w _ => heq i w

/-- Data that is seen together with more. -/
theorem mono {Sees' : ι → Scope → Prop} (hsees : ∀ i s, Sees' i s → Sees i s)
    (h : Prints Sees need left front right segments text) :
    Prints Sees' need left front right segments text := by
  obtain ⟨nodes, hnodes, hrun⟩ := h
  exact ⟨nodes, hnodes, fun i s hs => hrun i s (hsees i s hs)⟩

theorem nil (hcut : Segment.cut left right front = cut) :
    PrintsAll Sees left front right [] fun _ _ => Text.ofString cut := by
  subst hcut
  exact ⟨_, .nil .., fun _ _ _ => .ofText _⟩

/-- A text at the start. -/
theorem first {u : String} (h : Prints Sees need left u right rest text) :
    Prints Sees need left "" right (.text u :: rest) text := by
  obtain ⟨nodes, hnodes, hrun⟩ := h
  exact ⟨nodes, .first hnodes, hrun⟩

/-- A text behind another one. -/
theorem joined {u : String} (h : Prints Sees need left (front ++ u) right rest text) :
    Prints Sees need left front right (.text u :: rest) text := by
  obtain ⟨nodes, hnodes, hrun⟩ := h
  exact ⟨nodes, .text hnodes, hrun⟩

/-- A value for all data. -/
theorem output {before after : Bool} {value : ι → Text}
    (hcut : Segment.cut left before front = cut)
    (he : ∀ i s, Sees i s → PrintsAs false s e (value i))
    (h : Prints Sees need after "" right rest text) :
    Prints Sees need left front right (.output before after e :: rest)
      fun i w => Text.ofString cut ++ (value i ++ text i w) := by
  subst hcut
  obtain ⟨nodes, hnodes, hrun⟩ := h
  refine ⟨_, .output hnodes, fun i s hs => ?_⟩
  have hvalue : PrintsNodes s (.ok ()) [.output e] fun _ => value i :=
    runAll_last_output (he i s hs)
  exact .append (.ofText _) (hvalue.append (hrun i s hs))

theorem out {value : ι → Text} (hcut : Segment.cut left false front = cut)
    (he : ∀ i s, Sees i s → PrintsAs false s e (value i))
    (h : Prints Sees need false "" right rest text) :
    Prints Sees need left front right (Parts.out e :: rest)
      fun i w => Text.ofString cut ++ (value i ++ text i w) :=
  output hcut he h

/-- A value that the data may fail to have. -/
theorem needed {value : ω → Value} (hcut : Segment.cut left false front = cut)
    (he : ∀ i s, Sees i s → eval false s e = (need i).map value)
    (h : PrintsAll Sees false "" right rest last) :
    Prints Sees need left front right (Parts.out e :: rest)
      fun i w => Text.ofString cut ++ (shown false (value w) ++ last i ()) := by
  subst hcut
  obtain ⟨nodes, hnodes, hrun⟩ := h
  refine ⟨_, .out hnodes, fun i s hs => .append (.ofText _) ?_⟩
  have hvalue : PrintsNodes s (need i) [.output e] fun w => shown false (value w) := by
    rw [PrintsNodes, runAll, run, he i s hs]
    cases need i with
    | error f => rfl
    | ok w => exact congrArg (fun t => Except.ok (s, t)) (List.append_nil _)
  exact hvalue.append_last (hrun i s hs)

/-! ### Conditions -/

/-- A condition on the data that is seen. `c` tells when it fails. -/
theorem choice {before after before' after' before'' after'' : Bool} {c : ι → Bool}
    (hcut : Segment.cut left before front = cut)
    (htest : ∀ i s, Sees i s → ∃ v, eval false s test = .ok v ∧ v.isTrue = !c i)
    (hbody : PrintsAll Sees after "" before' body inner)
    (hother : PrintsAll Sees after' "" before'' other no)
    (h : Prints Sees need after'' "" right rest text) :
    Prints Sees need left front right (.tag before after (.ifTag test) ::
        (body ++ .tag before' after' .elseTag :: (other ++ .tag before'' after'' .endIf :: rest)))
      fun i w => Text.ofString cut ++ ((if c i then no i () else inner i ()) ++ text i w) := by
  subst hcut
  obtain ⟨yes, hyes, hrunYes⟩ := hbody
  obtain ⟨none, hnone, hrunNone⟩ := hother
  obtain ⟨nodes, hnodes, hrun⟩ := h
  refine ⟨_, .choice hyes hnone hnodes, fun i s hs => .append (.ofText _) ?_⟩
  obtain ⟨v, hv, htruth⟩ := htest i s hs
  exact (PrintsNodes.cond hv htruth (hrunYes i s hs) (hrunNone i s hs)).append (hrun i s hs)

theorem cutChoice {c : ι → Bool} (hcut : Segment.cut left true front = cut)
    (htest : ∀ i s, Sees i s → ∃ v, eval false s test = .ok v ∧ v.isTrue = !c i)
    (hbody : PrintsAll Sees false "" true body inner)
    (hother : PrintsAll Sees false "" true other no)
    (h : Prints Sees need false "" right rest text) :
    Prints Sees need left front right (Parts.cutChoice test body other ++ rest)
      fun i w => Text.ofString cut ++ ((if c i then no i () else inner i ()) ++ text i w) := by
  have hchoice := choice hcut htest hbody hother h
  simpa [Parts.cutChoice, cutTag] using hchoice

/-- A condition that holds exactly if there is other data to be seen. -/
theorem given {before after before' after' : Bool} {inner : κ → Unit → Text} (data : ι → Option κ)
    (hcut : Segment.cut left before front = cut)
    (htest : ∀ i s, Sees i s → ∃ v, eval false s test = .ok v ∧ v.isTrue = (data i).isSome ∧
      ∀ k ∈ data i, Sees' k s)
    (hbody : PrintsAll Sees' after "" before' body inner)
    (h : Prints Sees need after' "" right rest text) :
    Prints Sees need left front right
      (.tag before after (.ifTag test) :: (body ++ .tag before' after' .endIf :: rest))
      fun i w => Text.ofString cut ++ ((data i).elim [] (inner · ()) ++ text i w) := by
  subst hcut
  obtain ⟨yes, hyes, hrunYes⟩ := hbody
  obtain ⟨nodes, hnodes, hrun⟩ := h
  refine ⟨_, .cond hyes hnodes, fun i s hs => .append (.ofText _) ?_⟩
  obtain ⟨v, hv, htruth, hsees⟩ := htest i s hs
  have hcond := PrintsNodes.given () hv htruth fun k hk => hrunYes k s (hsees k hk)
  have hneed : (data i).elim (.ok ()) (fun _ => .ok ()) = (.ok () : Except Fault Unit) := by
    cases data i <;> rfl
  rw [hneed] at hcond
  exact hcond.append (hrun i s hs)

/-- The same for data that may fail to have values that are needed. -/
theorem givenNeeded {before after before' after' : Bool} {inner : κ → ω → Text}
    (data : ι → Option κ) (need : κ → Except Fault ω) (default : ω)
    (hcut : Segment.cut left before front = cut)
    (htest : ∀ i s, Sees i s → ∃ v, eval false s test = .ok v ∧ v.isTrue = (data i).isSome ∧
      ∀ k ∈ data i, Sees' k s)
    (hbody : Prints Sees' need after "" before' body inner)
    (h : PrintsAll Sees after' "" right rest last) :
    Prints Sees (fun i => (data i).elim (.ok default) need) left front right
      (.tag before after (.ifTag test) :: (body ++ .tag before' after' .endIf :: rest))
      fun i w => Text.ofString cut ++ ((data i).elim [] (inner · w) ++ last i ()) := by
  subst hcut
  obtain ⟨yes, hyes, hrunYes⟩ := hbody
  obtain ⟨nodes, hnodes, hrun⟩ := h
  refine ⟨_, .cond hyes hnodes, fun i s hs => .append (.ofText _) ?_⟩
  obtain ⟨v, hv, htruth, hsees⟩ := htest i s hs
  exact (PrintsNodes.given default hv htruth fun k hk => hrunYes k s (hsees k hk)).append_last
    (hrun i s hs)

/-- A condition with nothing to print when it fails. -/
theorem branch {before after before' after' : Bool} {c : ι → Bool}
    (hcut : Segment.cut left before front = cut)
    (htest : ∀ i s, Sees i s → ∃ v, eval false s test = .ok v ∧ v.isTrue = !c i)
    (hbody : PrintsAll Sees after "" before' body inner)
    (h : Prints Sees need after' "" right rest text) :
    Prints Sees need left front right
      (.tag before after (.ifTag test) :: (body ++ .tag before' after' .endIf :: rest))
      fun i w => Text.ofString cut ++ ((if c i then [] else inner i ()) ++ text i w) := by
  subst hcut
  obtain ⟨yes, hyes, hrunYes⟩ := hbody
  obtain ⟨nodes, hnodes, hrun⟩ := h
  refine ⟨_, .cond hyes hnodes, fun i s hs => .append (.ofText _) ?_⟩
  obtain ⟨v, hv, htruth⟩ := htest i s hs
  exact (PrintsNodes.cond hv htruth (hrunYes i s hs) (.ofText "")).append (hrun i s hs)

theorem plainCond {c : ι → Bool} (hcut : Segment.cut left false front = cut)
    (htest : ∀ i s, Sees i s → ∃ v, eval false s test = .ok v ∧ v.isTrue = !c i)
    (hbody : PrintsAll Sees false "" false body inner)
    (h : Prints Sees need false "" right rest text) :
    Prints Sees need left front right (Parts.cond test body ++ rest)
      fun i w => Text.ofString cut ++ ((if c i then [] else inner i ()) ++ text i w) := by
  have hbranch := branch hcut htest hbody h
  simpa [Parts.cond, Parts.tag] using hbranch

theorem cutCond {c : ι → Bool} (hcut : Segment.cut left true front = cut)
    (htest : ∀ i s, Sees i s → ∃ v, eval false s test = .ok v ∧ v.isTrue = !c i)
    (hbody : PrintsAll Sees false "" true body inner)
    (h : Prints Sees need false "" right rest text) :
    Prints Sees need left front right (Parts.cutCond test body ++ rest)
      fun i w => Text.ofString cut ++ ((if c i then [] else inner i ()) ++ text i w) := by
  have hbranch := branch hcut htest hbody h
  simpa [Parts.cutCond, cutTag] using hbranch

/-! ### Loops -/

/-- A loop over a list of the data. -/
theorem loop {before after before' after' : Bool} {value : α → Value}
    {inner : Round ι α → Unit → Text} (list : ι → List α)
    (hcut : Segment.cut left before front = cut)
    (hsource : ∀ i s, Sees i s → eval false s source = .ok (.list ((list i).map value)))
    (hbody : PrintsAll (SeesRound Sees name value) after "" before' body inner)
    (h : Prints Sees need after' "" right rest text) :
    Prints Sees need left front right
      (.tag before after (.forTag (.one name) source none) ::
        (body ++ .tag before' after' .endFor :: rest))
      fun i w => Text.ofString cut ++ (((list i).zipIdx.flatMap fun p =>
        inner ⟨i, p.1, p.2, (list i).length⟩ ()) ++ text i w) := by
  subst hcut
  obtain ⟨round, hround, hrunRound⟩ := hbody
  obtain ⟨nodes, hnodes, hrun⟩ := h
  refine ⟨_, .loop hround hnodes, fun i s hs => .append (.ofText _) ?_⟩
  have hloop : run false s (.loop (.one name) source none round []) =
      .ok (s, (list i).zipIdx.flatMap fun p => inner ⟨i, p.1, p.2, (list i).length⟩ ()) := by
    refine run_loop (hsource i s hs) ?_
    rw [List.length_map]
    exact rounds_zipIdx _ (fun a _ index => roundText_eq (hrunRound ⟨i, a, index, _⟩ _
      ⟨s, hs, rfl⟩)) 0
  have hone := runAll_cons hloop (runAll_nil ..)
  rw [List.append_nil] at hone
  exact PrintsNodes.append hone (hrun i s hs)

theorem plainLoop {value : α → Value} {inner : Round ι α → Unit → Text} (elements : ι → List α)
    (hcut : Segment.cut left false front = cut)
    (hsource : ∀ i s, Sees i s → eval false s (.ident list) = .ok (.list ((elements i).map value)))
    (hbody : PrintsAll (SeesRound Sees name value) false "" false body inner)
    (h : Prints Sees need false "" right rest text) :
    Prints Sees need left front right (Parts.loop name list body ++ rest)
      fun i w => Text.ofString cut ++ (((elements i).zipIdx.flatMap fun p =>
        inner ⟨i, p.1, p.2, (elements i).length⟩ ()) ++ text i w) := by
  have hloop := loop elements hcut hsource hbody h
  simpa [Parts.loop, Parts.tag, each] using hloop

/-- A loop whose rounds need values that the elements may fail to have. -/
theorem neededLoop {value : α → Value} (need : α → Except Fault ω) (elements : ι → List α)
    (inner : α → ω → Text) (hcut : Segment.cut left false front = cut)
    (hsource : ∀ i s, Sees i s → eval false s (.ident list) = .ok (.list ((elements i).map value)))
    (hbody : Prints (SeesRound Sees name value) (fun r => need r.element) false "" false body
      fun r w => inner r.element w)
    (h : PrintsAll Sees false "" right rest last) :
    Prints Sees (fun i => (elements i).mapM need) left front right
      (Parts.loop name list body ++ rest) fun i ws =>
        Text.ofString cut ++ (((elements i).zipWith inner ws).flatten ++ last i ()) := by
  subst hcut
  obtain ⟨round, hround, hrunRound⟩ := hbody
  obtain ⟨nodes, hnodes, hrun⟩ := h
  have hstands : Parts.loop name list body ++ rest =
      .tag false false (.forTag (.one name) (.ident list) none) ::
        (body ++ .tag false false .endFor :: rest) := by
    simp [Parts.loop, Parts.tag, each]
  rw [hstands]
  refine ⟨_, .loop hround hnodes, fun i s hs => .append (.ofText _) ?_⟩
  have hloop : PrintsNodes s ((elements i).mapM need)
      [.loop (.one name) (.ident list) none round []]
      fun ws => ((elements i).zipWith inner ws).flatten := by
    have hround : ∀ a ∈ elements i, ∀ index, roundText false s name round
        (.position index ((elements i).map value).length) (value a) = (need a).map (inner a) := by
      intro a _ index
      rw [roundText, hrunRound ⟨i, a, index, ((elements i).map value).length⟩ _ ⟨s, hs, rfl⟩]
      dsimp only
      cases need a <;> rfl
    rw [PrintsNodes, runAll, run_loop_eq (hsource i s hs), rounds_mapM inner hround 0]
    cases (elements i).mapM need with
    | error f => rfl
    | ok ws => exact congrArg (fun t => Except.ok (s, t)) (List.append_nil _)
  exact hloop.append_last (hrun i s hs)

theorem flatMap_zipIdx (f : α → Text) (as : List α) :
    (as.zipIdx.flatMap fun p => f p.1) = as.flatMap f := by
  have hfirst := List.flatMap_map (f := Prod.fst) (g := f) as.zipIdx
  rw [List.zipIdx_map_fst] at hfirst
  exact hfirst.symm

/-- A loop whose rounds do not look at their places. -/
theorem cutLoop {value : α → Value} (elements : ι → List α) (inner : ι → α → Text)
    (hcut : Segment.cut left true front = cut)
    (hsource : ∀ i s, Sees i s → eval false s source = .ok (.list ((elements i).map value)))
    (hbody : PrintsAll (SeesRound Sees name value) false "" true body
      fun r _ => inner r.outer r.element)
    (h : Prints Sees need false "" right rest text) :
    Prints Sees need left front right (Parts.cutLoop name source body ++ rest)
      fun i w => Text.ofString cut ++ ((elements i).flatMap (inner i) ++ text i w) := by
  have hloop := loop elements hcut hsource hbody h
  simp only [flatMap_zipIdx] at hloop
  simpa [Parts.cutLoop, cutTag] using hloop

/-- A table row for each element of a list. -/
theorem rows {value : α → Value} {es : List Expr} (hes : es ≠ []) (elements : ι → List α)
    (cells : ι → α → List Text) (hcut : Segment.cut left true front = cut)
    (hsource : ∀ i s, Sees i s → eval false s source = .ok (.list ((elements i).map value)))
    (hcells : ∀ r s, SeesRound Sees name value r s →
      List.Forall₂ (PrintsAs false s) es (cells r.outer r.element))
    (h : Prints Sees need false "" right rest text) :
    Prints Sees need left front right (Parts.rows name source es ++ rest)
      fun i w => Text.ofString cut ++
        (((elements i).flatMap fun a => line (cells i a)) ++ text i w) :=
  cutLoop elements _ hcut hsource
    ⟨_, .row hes, fun r s hs => .of_runAll (runAll_rowNodes (hcells r s hs))⟩ h

/-! ### Whole templates -/

/-- What a template prints. -/
theorem exists_template (h : Prints Sees need false "" false segments text) :
    ∃ t, Template.ofSegments? segments = some t ∧ ∀ i values, Sees i { globals := values } →
      t.render false values = (need i).map (text i) := by
  obtain ⟨nodes, hnodes, hrun⟩ := h
  refine ⟨⟨nodes⟩, hnodes.ofSegments?_eq, fun i values hs => ?_⟩
  rw [Template.render, hrun i _ hs]
  cases need i <;> rfl

end Prints
end Scope
end ContainerDocs

import ContainerDocs.Proofs.Report.Evaluate
import ContainerDocs.Proofs.Template.Structure

/-!
# Markup that data cannot reach

A template that escapes what it prints shows the same markup for all data that makes it take the
same branches and go through its loops equally often. This is said of two runs of one template, part
by part.

## Main definitions

* `Html.marks` — the characters of a text that open, close or quote markup.
* `Html.Escapes` — an expression whose value is printed as data.
* `Html.Alike` — a part of a template that prints the same marks in two scopes that are related.

## Main statements

* `Html.Alike.out`, `Html.Alike.cutCond`, `Html.Alike.cutChoice`, `Html.Alike.cutLoop` — what a part
  of a template needs to print the same marks.
-/

namespace ContainerDocs
namespace Html

open Scope Segment

/-! ## Marks -/

def isMark (c : CodePoint) : Bool := c = '<' || c = '>' || c = '"'

def marks (t : Text) : Text := t.filter isMark

@[simp] theorem marks_nil : marks [] = [] := rfl

@[simp] theorem marks_append (t u : Text) : marks (t ++ u) = marks t ++ marks u :=
  List.filter_append ..

theorem marks_escapeCode (c : CodePoint) : marks (escapeCode c) = [] := by
  unfold escapeCode
  split_ifs with hamp hless hgreater happ hquote
  · decide
  · decide
  · decide
  · decide
  · decide
  · simp [marks, isMark, hless, hgreater, hquote]

/-- An escaped text has no marks. -/
@[simp] theorem marks_escape (t : Text) : marks (escape t) = [] := by
  rw [escape, marks, List.filter_flatMap]
  exact List.flatMap_eq_nil_iff.2 fun c _ => marks_escapeCode c

/-! ## Expressions -/

def IsData : Value → Prop
  | .text true _ => False
  | _ => True

theorem marks_shown {v : Value} (h : IsData v) : marks (shown true v) = [] := by
  unfold shown
  split
  next t => exact h.elim
  next => exact marks_escape _

def Escapes (s : Scope) (e : Expr) : Prop := ∃ v, eval true s e = .ok v ∧ IsData v

theorem Escapes.exists_printsAs {s : Scope} {e : Expr} (h : Escapes s e) :
    ∃ t, PrintsAs true s e t ∧ marks t = [] := by
  obtain ⟨v, hv, hdata⟩ := h
  exact ⟨_, ⟨v, hv, rfl⟩, marks_shown hdata⟩

def Twins (s s' : Scope) (e : Expr) (P : Value → Value → Prop) : Prop :=
  ∃ v v', eval true s e = .ok v ∧ eval true s' e = .ok v' ∧ P v v'

theorem Twins.imp {s s' : Scope} {e : Expr} {P Q : Value → Value → Prop} (h : Twins s s' e P)
    (hpq : ∀ v v', P v v' → Q v v') : Twins s s' e Q := by
  obtain ⟨v, v', hv, hv', hp⟩ := h
  exact ⟨v, v', hv, hv', hpq v v' hp⟩

/-- What a name stands for in both scopes is related. -/
def Sees (P : Value → Value → Prop) (name : String) (s s' : Scope) : Prop :=
  P (s.find name) (s'.find name)

def ListOf (S : Value → Value → Prop) (v v' : Value) : Prop :=
  ∃ vs vs', v = .list vs ∧ v' = .list vs' ∧ List.Forall₂ S vs vs'

/-! ## Nodes -/

/-- The nodes print texts with the same marks in both scopes, and leave both as they are. -/
def SameMarks (s s' : Scope) (nodes : List Node) : Prop :=
  ∃ t t', runAll true s nodes = .ok (s, t) ∧ runAll true s' nodes = .ok (s', t') ∧
    marks t = marks t'

namespace SameMarks

variable {s s' : Scope} {nodes nodes' yes no body : List Node} {test source e : Expr}

theorem ofText (text : String) : SameMarks s s' (Node.ofText text) :=
  ⟨_, _, runAll_ofText .., runAll_ofText .., rfl⟩

theorem append (h : SameMarks s s' nodes) (h' : SameMarks s s' nodes') :
    SameMarks s s' (nodes ++ nodes') := by
  obtain ⟨t, t', ht, ht', hmarks⟩ := h
  obtain ⟨u, u', hu, hu', hmarks'⟩ := h'
  exact ⟨_, _, runAll_append ht hu, runAll_append ht' hu', by simp [hmarks, hmarks']⟩

/-- A value that is not markup adds no marks. -/
theorem output (he : Escapes s e ∧ Escapes s' e) (h : SameMarks s s' nodes) :
    SameMarks s s' (.output e :: nodes) := by
  obtain ⟨u, hu, hplain⟩ := he.1.exists_printsAs
  obtain ⟨u', hu', hplain'⟩ := he.2.exists_printsAs
  obtain ⟨t, t', ht, ht', hmarks⟩ := h
  exact ⟨_, _, runAll_output hu ht, runAll_output hu' ht', by simp [hplain, hplain', hmarks]⟩

/-- A condition takes the same branch in both scopes. -/
theorem cond (htest : Twins s s' test fun v v' => v.isTrue = v'.isTrue ∧
      (v.isTrue = true → SameMarks s s' yes)) (hno : SameMarks s s' no)
    (h : SameMarks s s' nodes) : SameMarks s s' (.cond test yes no :: nodes) := by
  obtain ⟨v, v', hv, hv', htruth, hyes⟩ := htest
  have hbranch : SameMarks s s' (if v.isTrue then yes else no) := by
    split_ifs with htrue
    · exact hyes htrue
    · exact hno
  obtain ⟨u, u', hu, hu', hmarks'⟩ := hbranch
  rw [htruth] at hu'
  obtain ⟨t, t', ht, ht', hmarks⟩ := h
  exact ⟨_, _, runAll_cond hv hu ht, runAll_cond hv' hu' ht', by simp [hmarks, hmarks']⟩

/-- Two loops go through their rounds together. -/
theorem rounds {round round' : Value → Value → Except Fault Text} {vs vs' : List Value}
    (length : Nat)
    (h : List.Forall₂ (fun v v' => ∀ index, ∃ t t', round (.position index length) v = .ok t ∧
      round' (.position index length) v' = .ok t' ∧ marks t = marks t') vs vs') (index : Nat) :
    ∃ t t', Scope.rounds round length index vs = .ok t ∧
      Scope.rounds round' length index vs' = .ok t' ∧ marks t = marks t' := by
  induction h generalizing index with
  | nil => exact ⟨[], [], rfl, rfl, rfl⟩
  | cons hv _ ih =>
    obtain ⟨t, t', ht, ht', hmarks⟩ := hv index
    obtain ⟨u, u', hu, hu', hmarks'⟩ := ih (index + 1)
    refine ⟨t ++ u, t' ++ u', ?_, ?_, by simp [hmarks, hmarks']⟩
    · rw [Scope.rounds, ht, ok_bind, hu]
      rfl
    · rw [Scope.rounds, ht', ok_bind, hu']
      rfl

theorem loop {name : String} {vs vs' : List Value} (hsource : eval true s source = .ok (.list vs))
    (hsource' : eval true s' source = .ok (.list vs'))
    (hbody : List.Forall₂ (fun v v' => ∀ index length,
      SameMarks (s.round name (.position index length) v)
        (s'.round name (.position index length) v') body) vs vs')
    (h : SameMarks s s' nodes) :
    SameMarks s s' (.loop (.one name) source none body [] :: nodes) := by
  have hrounds : List.Forall₂ (fun v v' => ∀ index, ∃ t t',
      roundText true s name body (.position index vs.length) v = .ok t ∧
      roundText true s' name body (.position index vs.length) v' = .ok t' ∧
      marks t = marks t') vs vs' := by
    refine hbody.imp fun v v' hround index => ?_
    obtain ⟨t, t', ht, ht', hmarks⟩ := hround index vs.length
    exact ⟨t, t', roundText_eq ht, roundText_eq ht', hmarks⟩
  obtain ⟨u, u', hu, hu', hmarks'⟩ := rounds vs.length hrounds 0
  rw [hbody.length_eq] at hu'
  obtain ⟨t, t', ht, ht', hmarks⟩ := h
  exact ⟨_, _, runAll_cons (run_loop hsource hu) ht, runAll_cons (run_loop hsource' hu') ht',
    by simp [hmarks, hmarks']⟩

end SameMarks

/-! ## Segments -/

variable {R R' : Scope → Scope → Prop} {S : Value → Value → Prop} {right : Bool}
  {name list : String} {segments segments' body other : List Segment} {test source e : Expr}

/-- What is left of a template up to a tag, whatever text comes before it, prints the same marks in
any two scopes that are related. `right` tells whether that tag cuts the blanks before it. -/
def AlikeUpTo (R : Scope → Scope → Prop) (right : Bool) (segments : List Segment) : Prop :=
  ∀ left text, ∃ nodes, Stands left text right segments nodes ∧
    ∀ s s', R s s' → SameMarks s s' nodes

/-- A part of a template prints the same marks in any two scopes that are related, wherever it
stands. -/
def Alike (R : Scope → Scope → Prop) (segments : List Segment) : Prop :=
  ∀ right rest, AlikeUpTo R right rest → AlikeUpTo R right (segments ++ rest)

/-- The values of names in the same round of two loops over values that are related. -/
inductive InRound (R : Scope → Scope → Prop) (name : String) (S : Value → Value → Prop) :
    Scope → Scope → Prop
  | intro {s s' : Scope} {v v' : Value} (index length : Nat) (hs : R s s') (hv : S v v') :
      InRound R name S (s.round name (.position index length) v)
        (s'.round name (.position index length) v')

theorem InRound.sees {s s' : Scope} (h : InRound R name S s s') : Sees S name s s' := by
  obtain ⟨index, length, hs, hv⟩ := h
  simpa [Sees] using hv

/-- The rounds of a loop see what all other names stand for. -/
theorem Sees.of_round {P : Value → Value → Prop} (hR : ∀ s s', R s s' → Sees P name s s')
    {loopName : String} (hne : name ≠ loopName) (hloop : name ≠ "loop") (s s' : Scope)
    (h : InRound R loopName S s s') : Sees P name s s' := by
  obtain ⟨index, length, hs, hv⟩ := h
  rw [Sees, find_round_of_ne _ _ _ hne hloop, find_round_of_ne _ _ _ hne hloop]
  exact hR _ _ hs

/-- A test has the same truth in related scopes. What holds of them when it succeeds may be said in
another relation. -/
def Tests (R R' : Scope → Scope → Prop) (test : Expr) : Prop :=
  ∀ s s', R s s' → Twins s s' test fun v v' => v.isTrue = v'.isTrue ∧ (v.isTrue = true → R' s s')

theorem Tests.sameMarks {yes no nodes : List Node} (htest : Tests R R' test)
    (hyes : ∀ s s', R' s s' → SameMarks s s' yes) {s s' : Scope} (hs : R s s')
    (hno : SameMarks s s' no) (h : SameMarks s s' nodes) :
    SameMarks s s' (.cond test yes no :: nodes) :=
  .cond ((htest s s' hs).imp fun _ _ hv => ⟨hv.1, fun htrue => hyes s s' (hv.2 htrue)⟩) hno h

/-- A source has lists of related elements in related scopes. -/
def Lists (R : Scope → Scope → Prop) (S : Value → Value → Prop) (source : Expr) : Prop :=
  ∀ s s', R s s' → Twins s s' source (ListOf S)

theorem lists_ident (hR : ∀ s s', R s s' → Sees (ListOf S) name s s') : Lists R S (.ident name) :=
  fun s s' hs => ⟨_, _, rfl, rfl, hR s s' hs⟩

theorem Lists.sameMarks {inner nodes : List Node} (hsource : Lists R S source)
    (hinner : ∀ s s', InRound R name S s s' → SameMarks s s' inner) {s s' : Scope} (hs : R s s')
    (h : SameMarks s s' nodes) :
    SameMarks s s' (.loop (.one name) source none inner [] :: nodes) := by
  obtain ⟨v, v', hv, hv', vs, vs', rfl, rfl, hvs⟩ := hsource s s' hs
  refine .loop hv hv' (hvs.imp fun w w' hw index length => ?_) h
  exact hinner _ _ (.intro index length hs hw)

/-- Lists of related elements are empty alike. -/
theorem Lists.tests (h : Lists R S source) : Tests R R source := by
  intro s s' hs
  refine (h s s' hs).imp ?_
  rintro v v' ⟨vs, vs', rfl, rfl, hvs⟩
  refine ⟨?_, fun _ => hs⟩
  cases hvs <;> rfl

namespace Alike

theorem nil : Alike R [] := fun _ _ h => h

theorem append (h : Alike R segments) (h' : Alike R segments') :
    Alike R (segments ++ segments') := by
  intro right rest hrest
  rw [List.append_assoc]
  exact h _ _ (h' _ _ hrest)

/-- A part up to a tag. -/
theorem upTo (h : Alike R segments) (right : Bool) : AlikeUpTo R right segments := by
  have hnil : AlikeUpTo R right [] := fun left text => ⟨_, .nil .., fun _ _ _ => .ofText _⟩
  have hsegments := h right [] hnil
  rwa [List.append_nil] at hsegments

theorem text {u : String} (h : Alike R segments) : Alike R (.text u :: segments) := by
  intro right rest hrest left text
  obtain ⟨nodes, hnodes, hrun⟩ := h right rest hrest left (text ++ u)
  exact ⟨nodes, .text hnodes, hrun⟩

theorem out (he : ∀ s s', R s s' → Escapes s e ∧ Escapes s' e) (h : Alike R segments) :
    Alike R (Parts.out e :: segments) := by
  intro right rest hrest left text
  obtain ⟨nodes, hnodes, hrun⟩ := h right rest hrest false ""
  exact ⟨_, .out hnodes, fun s s' hs => .append (.ofText _) (.output (he s s' hs) (hrun s s' hs))⟩

theorem plainCond (htest : Tests R R' test) (hbody : Alike R' body) :
    Alike R (Parts.cond test body) := by
  intro right rest hrest left text
  obtain ⟨yes, hyes, hrunYes⟩ := hbody.upTo false false ""
  obtain ⟨nodes, hnodes, hrun⟩ := hrest false ""
  exact ⟨_, .plainCond hyes hnodes, fun s s' hs =>
    .append (.ofText _) (htest.sameMarks hrunYes hs (.ofText "") (hrun s s' hs))⟩

theorem cutCond (htest : Tests R R' test) (hbody : Alike R' body) :
    Alike R (Parts.cutCond test body) := by
  intro right rest hrest left text
  obtain ⟨yes, hyes, hrunYes⟩ := hbody.upTo true false ""
  obtain ⟨nodes, hnodes, hrun⟩ := hrest false ""
  exact ⟨_, .cutCond hyes hnodes, fun s s' hs =>
    .append (.ofText _) (htest.sameMarks hrunYes hs (.ofText "") (hrun s s' hs))⟩

theorem cutChoice (htest : Tests R R' test) (hbody : Alike R' body) (hother : Alike R other) :
    Alike R (Parts.cutChoice test body other) := by
  intro right rest hrest left text
  obtain ⟨yes, hyes, hrunYes⟩ := hbody.upTo true false ""
  obtain ⟨no, hno, hrunNo⟩ := hother.upTo true false ""
  obtain ⟨nodes, hnodes, hrun⟩ := hrest false ""
  exact ⟨_, .cutChoice hyes hno hnodes, fun s s' hs =>
    .append (.ofText _) (htest.sameMarks hrunYes hs (hrunNo s s' hs) (hrun s s' hs))⟩

theorem plainLoop (hsource : Lists R S (.ident list)) (hbody : Alike (InRound R name S) body) :
    Alike R (Parts.loop name list body) := by
  intro right rest hrest left text
  obtain ⟨inner, hinner, hrunInner⟩ := hbody.upTo false false ""
  obtain ⟨nodes, hnodes, hrun⟩ := hrest false ""
  exact ⟨_, .plainLoop hinner hnodes, fun s s' hs =>
    .append (.ofText _) (hsource.sameMarks hrunInner hs (hrun s s' hs))⟩

theorem cutLoop (hsource : Lists R S source) (hbody : Alike (InRound R name S) body) :
    Alike R (Parts.cutLoop name source body) := by
  intro right rest hrest left text
  obtain ⟨inner, hinner, hrunInner⟩ := hbody.upTo true false ""
  obtain ⟨nodes, hnodes, hrun⟩ := hrest false ""
  exact ⟨_, .cutLoop hinner hnodes, fun s s' hs =>
    .append (.ofText _) (hsource.sameMarks hrunInner hs (hrun s s' hs))⟩

end Alike
end Html
end ContainerDocs

import ContainerDocs.Report.Builtin.Parts
import ContainerDocs.Template.Assembly
import Mathlib.Tactic.SplitIfs

/-!
# The structure of assembled templates

What nodes segments stand for, part by part: blanks are cut by the tags around a text, and all that
stands between a statement and its end goes inside that statement. So a long template is assembled
from its parts, each of them looked at once.

## Main definitions

* `Node.ofText` — the nodes of a text.
* `Parts.rowNodes` — the nodes of a table row.
* `Segment.Stands` — segments, between a text before them and a tag behind them, stand for nodes.

## Main statements

* `Segment.Stands.foldlM_step` — assembling segments gives the nodes that they stand for.
* `Segment.Stands.ofSegments?_eq` — segments that stand for nodes are a template.
* `Segment.Stands.row` — what a table row stands for.
-/

namespace ContainerDocs

/-- The nodes of a text: one, or none if the text is empty. -/
def Node.ofText (s : String) : List Node := if s.isEmpty then [] else [.text s]

theorem Node.reverse_ofText (s : String) : (ofText s).reverse = ofText s := by
  unfold ofText
  split_ifs <;> rfl

namespace Parts

def cellNodes : List Expr → List Node
  | [] => []
  | [e] => [.output e]
  | e :: rest => .output e :: (Node.ofText " | " ++ cellNodes rest)

/-- The nodes of a row in front of a tag that cuts the line break at its end. -/
def rowNodes (es : List Expr) : List Node :=
  Node.ofText "\n| " ++ (cellNodes es ++ Node.ofText " |")

end Parts

namespace Assembly

theorem step_text (a : Assembly) (s : String) :
    a.step (.text s) = some ⟨a.pending, Node.ofText s ++ a.nodes⟩ := by
  rw [step, Node.ofText, add]
  split_ifs <;> rfl

theorem step_tag (a : Assembly) (before after : Bool) (t : Tag) :
    a.step (.tag before after t) = a.stepTag t := rfl

theorem foldlM_text (a : Assembly) (s : String) (rest : List Segment) :
    (Segment.text s :: rest).foldlM step a =
      rest.foldlM step ⟨a.pending, Node.ofText s ++ a.nodes⟩ := by
  rw [List.foldlM_cons, step_text]
  rfl

theorem foldlM_output (a : Assembly) (before after : Bool) (e : Expr) (rest : List Segment) :
    (Segment.output before after e :: rest).foldlM step a =
      rest.foldlM step ⟨a.pending, .output e :: a.nodes⟩ := by
  rw [List.foldlM_cons]
  rfl

end Assembly

namespace Segment

open Assembly

theorem cut_false (s : String) : cut false false s = s := by
  rw [cut, if_neg (by simp), if_neg (by simp), String.ofList_toList]

theorem cut_ofList (left right : Bool) (cs : List Char) :
    cut left right (String.ofList cs) = String.ofList
      (if right then Blank.stripRight (if left then Blank.stripLeft cs else cs)
        else if left then Blank.stripLeft cs else cs) := by
  rw [cut, String.toList_ofList]

def isText : Segment → Bool
  | text _ => true
  | _ => false

theorem joined_cons {s : Segment} (hs : s.isText = false) (rest : List Segment) :
    joined (s :: rest) = s :: joined rest := by
  cases s with
  | text t => cases hs
  | output before after e => rfl
  | tag before after t => rfl

/-- The segments stand for the nodes, after a text that comes from before them. `left` tells whether
the tag in front of that text cuts blanks, `right` whether what follows the segments does. -/
inductive Stands :
    (left : Bool) → (text : String) → (right : Bool) → List Segment → List Node → Prop
  | nil (left : Bool) (text : String) (right : Bool) :
      Stands left text right [] (Node.ofText (cut left right text))
  | text {left right : Bool} {text s : String} {rest : List Segment} {nodes : List Node}
      (h : Stands left (text ++ s) right rest nodes) :
      Stands left text right (.text s :: rest) nodes
  | output {left right before after : Bool} {text : String} {e : Expr} {rest : List Segment}
      {nodes : List Node} (h : Stands after "" right rest nodes) :
      Stands left text right (.output before after e :: rest)
        (Node.ofText (cut left before text) ++ .output e :: nodes)
  | set {left right before after : Bool} {text : String} {target : Target} {e : Expr}
      {rest : List Segment} {nodes : List Node} (h : Stands after "" right rest nodes) :
      Stands left text right (.tag before after (.set target e) :: rest)
        (Node.ofText (cut left before text) ++ .set target e :: nodes)
  | cond {left right before after before' after' : Bool} {text : String} {test : Expr}
      {body rest : List Segment} {yes nodes : List Node} (hbody : Stands after "" before' body yes)
      (h : Stands after' "" right rest nodes) :
      Stands left text right
        (.tag before after (.ifTag test) :: (body ++ .tag before' after' .endIf :: rest))
        (Node.ofText (cut left before text) ++ .cond test yes [] :: nodes)
  | choice {left right before after before' after' before'' after'' : Bool} {text : String}
      {test : Expr} {body other rest : List Segment} {yes no nodes : List Node}
      (hbody : Stands after "" before' body yes) (hother : Stands after' "" before'' other no)
      (h : Stands after'' "" right rest nodes) :
      Stands left text right
        (.tag before after (.ifTag test) :: (body ++ .tag before' after' .elseTag ::
          (other ++ .tag before'' after'' .endIf :: rest)))
        (Node.ofText (cut left before text) ++ .cond test yes no :: nodes)
  | loop {left right before after before' after' : Bool} {text : String} {target : Target}
      {source : Expr} {condition : Option Expr} {body rest : List Segment} {inner nodes : List Node}
      (hbody : Stands after "" before' body inner) (h : Stands after' "" right rest nodes) :
      Stands left text right
        (.tag before after (.forTag target source condition) ::
          (body ++ .tag before' after' .endFor :: rest))
        (Node.ofText (cut left before text) ++ .loop target source condition inner [] :: nodes)
  | define {left right before after before' after' : Bool} {text name : String}
      {parameters : List (String × Option Expr)} {body rest : List Segment}
      {inner nodes : List Node} (hbody : Stands after "" before' body inner)
      (h : Stands after' "" right rest nodes) :
      Stands left text right
        (.tag before after (.defineTag name parameters) ::
          (body ++ .tag before' after' .endDefine :: rest))
        (Node.ofText (cut left before text) ++ .define name parameters inner :: nodes)

variable {left right : Bool} {text : String} {segments rest : List Segment} {nodes : List Node}

/-! ## Assembling -/

def NoTextFirst (segments : List Segment) : Prop := ∀ s ∈ segments.head?, s.isText = false

theorem joined_text_text (s t : String) (segments : List Segment) :
    joined (.text s :: .text t :: segments) = joined (.text (s ++ t) :: segments) := by
  simp only [joined]
  cases joined segments with
  | nil => rfl
  | cons u others =>
    cases u with
    | text u => simp [String.append_assoc]
    | output before after e => rfl
    | tag before after t => rfl

/-- A text is not joined with segments that start with none. -/
theorem joined_text_of_noTextFirst (s : String) (h : NoTextFirst segments) :
    joined (.text s :: segments) = .text s :: joined segments ∧
      cutsBefore (joined segments) = cutsBefore segments := by
  cases segments with
  | nil => exact ⟨rfl, rfl⟩
  | cons u others =>
    cases u with
    | text t => cases h _ rfl
    | output before after e => exact ⟨rfl, rfl⟩
    | tag before after t => exact ⟨rfl, rfl⟩

theorem cut_empty (left right : Bool) : cut left right "" = "" := by
  cases left <;> cases right <;> rfl

/-- An empty text makes no difference. -/
theorem foldlM_text_empty (left : Bool) (segments : List Segment) (a : Assembly) :
    (trimmed left (joined (.text "" :: segments))).foldlM step a =
      (trimmed left (joined segments)).foldlM step a := by
  have hempty : ∀ right (others : List Segment),
      (Segment.text (cut left right "") :: others).foldlM step a = others.foldlM step a := by
    intro right others
    rw [cut_empty]
    exact foldlM_text a "" others
  rw [joined]
  cases joined segments with
  | nil => exact hempty false []
  | cons u others =>
    cases u with
    | text t =>
      dsimp only
      rw [String.empty_append]
    | output before after e => exact hempty before _
    | tag before after t => exact hempty before _

/-- A text and a segment behind it that is none. -/
theorem foldlM_text_cons {s : Segment} (hs : s.isText = false) (a : Assembly) :
    (trimmed left (joined (.text text :: s :: rest))).foldlM step a =
      (trimmed false (joined (s :: rest))).foldlM step
        ⟨a.pending, Node.ofText (cut left (cutsBefore [s]) text) ++ a.nodes⟩ := by
  have hfirst : NoTextFirst (s :: rest) := by
    rintro u ⟨⟩
    exact hs
  obtain ⟨hjoined, hcuts⟩ := joined_text_of_noTextFirst text hfirst
  rw [hjoined, trimmed, hcuts, foldlM_text]
  cases s with
  | text t => cases hs
  | output before after e => rfl
  | tag before after t => rfl

theorem foldlM_tag {before after : Bool} {t : Tag} {a b : Assembly} (h : a.stepTag t = some b) :
    (trimmed left (joined (.tag before after t :: rest))).foldlM step a =
      (trimmed after (joined (.text "" :: rest))).foldlM step b := by
  rw [foldlM_text_empty, joined_cons rfl, trimmed, List.foldlM_cons, step_tag, h]
  rfl

theorem noTextFirst_tag (before after : Bool) (t : Tag) (segments : List Segment) :
    NoTextFirst (.tag before after t :: segments) := by
  rintro u ⟨⟩
  rfl

/-- Segments that stand for nodes, in front of segments that start with no text, are assembled into
these nodes. -/
theorem Stands.foldlM_step (h : Stands left text right segments nodes) (hfirst : NoTextFirst rest)
    (hright : cutsBefore rest = right) (a : Assembly) :
    (trimmed left (joined (.text text :: (segments ++ rest)))).foldlM step a =
      (trimmed false (joined rest)).foldlM step ⟨a.pending, nodes.reverse ++ a.nodes⟩ := by
  induction h generalizing rest a with
  | nil left text right =>
    obtain ⟨hjoined, hcuts⟩ := joined_text_of_noTextFirst text hfirst
    rw [List.nil_append, hjoined, trimmed, hcuts, hright, foldlM_text, Node.reverse_ofText]
  | text _ ih =>
    rw [List.cons_append, joined_text_text]
    exact ih hfirst hright a
  | output _ ih =>
    rw [List.cons_append, foldlM_text_cons rfl, joined_cons rfl, trimmed, foldlM_output,
      ← foldlM_text_empty, ih hfirst hright]
    simp [Node.reverse_ofText, cutsBefore]
  | set _ ih =>
    rw [List.cons_append, foldlM_text_cons rfl, foldlM_tag rfl, ih hfirst hright]
    simp [Node.reverse_ofText, cutsBefore, add]
  | cond _ _ ihbody ih =>
    rw [List.cons_append, foldlM_text_cons rfl, foldlM_tag rfl, List.append_assoc,
      List.cons_append, ihbody (noTextFirst_tag _ _ _ _) rfl, foldlM_tag rfl, ih hfirst hright]
    simp [Node.reverse_ofText, cutsBefore, push]
  | choice _ _ _ ihbody ihother ih =>
    rw [List.cons_append, foldlM_text_cons rfl, foldlM_tag rfl, List.append_assoc,
      List.cons_append, ihbody (noTextFirst_tag _ _ _ _) rfl, foldlM_tag rfl, List.append_assoc,
      List.cons_append, ihother (noTextFirst_tag _ _ _ _) rfl, foldlM_tag rfl, ih hfirst hright]
    simp [Node.reverse_ofText, cutsBefore, push]
  | loop _ _ ihbody ih =>
    rw [List.cons_append, foldlM_text_cons rfl, foldlM_tag rfl, List.append_assoc,
      List.cons_append, ihbody (noTextFirst_tag _ _ _ _) rfl, foldlM_tag rfl, ih hfirst hright]
    simp [Node.reverse_ofText, cutsBefore, push]
  | define _ _ ihbody ih =>
    rw [List.cons_append, foldlM_text_cons rfl, foldlM_tag rfl, List.append_assoc,
      List.cons_append, ihbody (noTextFirst_tag _ _ _ _) rfl, foldlM_tag rfl, ih hfirst hright]
    simp [Node.reverse_ofText, cutsBefore, push]

/-- Segments that stand for nodes are a template. -/
theorem Stands.ofSegments?_eq (h : Stands false "" false segments nodes) :
    Template.ofSegments? segments = some ⟨nodes⟩ := by
  have hfirst : NoTextFirst [] := by rintro u ⟨⟩
  have hnodes := h.foldlM_step hfirst rfl {}
  rw [foldlM_text_empty, List.append_nil] at hnodes
  rw [Template.ofSegments?, hnodes]
  simp [joined, trimmed, finish]

namespace Stands

open Parts

/-- A text at the start. -/
theorem first {s : String} (h : Stands left s right rest nodes) :
    Stands left "" right (.text s :: rest) nodes := by
  rw [← String.empty_append (s := s)] at h
  exact .text h

theorem cells {es : List Expr} (h : Stands false "" right rest nodes) (hes : es ≠ []) :
    Stands false text right (Parts.cells es ++ rest)
      (Node.ofText text ++ (cellNodes es ++ nodes)) := by
  fun_induction Parts.cells es generalizing text with
  | case1 => exact absurd rfl hes
  | case2 e =>
    have hcell : Stands false text right (.output false false e :: rest)
        (Node.ofText (cut false false text) ++ .output e :: nodes) := .output h
    rwa [cut_false] at hcell
  | case3 e es hne ih =>
    have hnodes : cellNodes (e :: es) = .output e :: (Node.ofText " | " ++ cellNodes es) := by
      rw [cellNodes]
      exact hne
    have hcells : Stands false "" right (.text " | " :: (Parts.cells es ++ rest))
        (Node.ofText " | " ++ (cellNodes es ++ nodes)) := .first (ih hne)
    have hcell : Stands false text right
        (.output false false e :: .text " | " :: (Parts.cells es ++ rest))
        (Node.ofText (cut false false text) ++ .output e ::
          (Node.ofText " | " ++ (cellNodes es ++ nodes))) := .output hcells
    rw [cut_false] at hcell
    simpa [hnodes, out] using hcell

/-- A table row in front of a tag that cuts the line break at its end. -/
theorem row {es : List Expr} (hes : es ≠ []) :
    Stands false "" true (Parts.row es) (rowNodes es) := by
  have hend : Stands false "" true [.text " |\n"] (Node.ofText " |") := .first (.nil ..)
  exact .first (.cells hend hes)

/-! ### Parts -/

variable {test source : Expr} {body other : List Segment} {yes no : List Node} {name list : String}

theorem out {e : Expr} (h : Stands false "" right rest nodes) :
    Stands left text right (Parts.out e :: rest)
      (Node.ofText (cut left false text) ++ .output e :: nodes) :=
  .output h

theorem plainCond (hbody : Stands false "" false body yes) (h : Stands false "" right rest nodes) :
    Stands left text right (Parts.cond test body ++ rest)
      (Node.ofText (cut left false text) ++ .cond test yes [] :: nodes) := by
  have hcond : Stands left text right
      (.tag false false (.ifTag test) :: (body ++ .tag false false .endIf :: rest)) _ :=
    .cond hbody h
  simpa [Parts.cond, Parts.tag] using hcond

theorem cutCond (hbody : Stands false "" true body yes) (h : Stands false "" right rest nodes) :
    Stands left text right (Parts.cutCond test body ++ rest)
      (Node.ofText (cut left true text) ++ .cond test yes [] :: nodes) := by
  have hcond : Stands left text right
      (.tag true false (.ifTag test) :: (body ++ .tag true false .endIf :: rest)) _ :=
    .cond hbody h
  simpa [Parts.cutCond, cutTag] using hcond

theorem cutChoice (hbody : Stands false "" true body yes) (hother : Stands false "" true other no)
    (h : Stands false "" right rest nodes) :
    Stands left text right (Parts.cutChoice test body other ++ rest)
      (Node.ofText (cut left true text) ++ .cond test yes no :: nodes) := by
  have hchoice : Stands left text right (.tag true false (.ifTag test) ::
      (body ++ .tag true false .elseTag :: (other ++ .tag true false .endIf :: rest))) _ :=
    .choice hbody hother h
  simpa [Parts.cutChoice, cutTag] using hchoice

theorem plainLoop (hbody : Stands false "" false body yes) (h : Stands false "" right rest nodes) :
    Stands left text right (Parts.loop name list body ++ rest)
      (Node.ofText (cut left false text) ++
        .loop (.one name) (.ident list) none yes [] :: nodes) := by
  have hloop : Stands left text right (.tag false false (.forTag (.one name) (.ident list) none) ::
      (body ++ .tag false false .endFor :: rest)) _ := .loop hbody h
  simpa [Parts.loop, Parts.tag, each] using hloop

theorem cutLoop (hbody : Stands false "" true body yes) (h : Stands false "" right rest nodes) :
    Stands left text right (Parts.cutLoop name source body ++ rest)
      (Node.ofText (cut left true text) ++ .loop (.one name) source none yes [] :: nodes) := by
  have hloop : Stands left text right (.tag true false (.forTag (.one name) source none) ::
      (body ++ .tag true false .endFor :: rest)) _ := .loop hbody h
  simpa [Parts.cutLoop, cutTag] using hloop

theorem rows {es : List Expr} (hes : es ≠ []) (h : Stands false "" right rest nodes) :
    Stands left text right (Parts.rows name source es ++ rest)
      (Node.ofText (cut left true text) ++
        .loop (.one name) source none (rowNodes es) [] :: nodes) :=
  .cutLoop (.row hes) h

end Stands
end Segment
end ContainerDocs

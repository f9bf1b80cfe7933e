import ContainerDocs.Proofs.Text.Whole
import ContainerDocs.Template.Assembly

/-!
# Templates with whole texts

A template writes texts out in its expressions. They are the texts in the segments that the template
is assembled from.

## Main definitions

* `Expr.isWhole`, `Node.isWhole`, `Segment.isWhole` — whether the texts that are written out are
  whole.

## Main statements

* `Template.allWhole_of_segments` — segments with whole texts are a template with whole texts.
-/

namespace ContainerDocs

/-! ## Expressions and nodes -/

namespace Expr

mutual

def isWhole : Expr → Bool
  | .literal (.text _ t) => t.all fun c => !c.isHalf
  | .literal _ | .ident _ | .nothing _ => true
  | .list items => allWhole items
  | .mapping entries => entriesWhole entries
  | .attribute object _ | .negative object | .not object => isWhole object
  | .test object _ arguments => isWhole object && allWhole arguments
  | .slice object start stop step =>
    isWhole object && optionWhole start && optionWhole stop && optionWhole step
  | .call object arguments named => isWhole object && allWhole arguments && namedWhole named
  | .filter object _ arguments named => isWhole object && allWhole arguments && namedWhole named
  | .item left right | .operation _ left right | .concat left right | .compare _ left right
  | .and left right | .or left right => isWhole left && isWhole right
  | .choice condition yes no => isWhole condition && isWhole yes && isWhole no

def allWhole : List Expr → Bool
  | e :: rest => isWhole e && allWhole rest
  | [] => true

def optionWhole : Option Expr → Bool
  | some e => isWhole e
  | none => true

def entriesWhole : List (Expr × Expr) → Bool
  | (key, value) :: rest => isWhole key && isWhole value && entriesWhole rest
  | [] => true

def namedWhole : List (String × Expr) → Bool
  | (_, e) :: rest => isWhole e && namedWhole rest
  | [] => true

end

end Expr

namespace Node

mutual

def isWhole : Node → Bool
  | .text _ => true
  | .output value | .set _ value => value.isWhole
  | .cond test yes no => test.isWhole && allWhole yes && allWhole no
  | .loop _ source condition body otherwise =>
    source.isWhole && Expr.optionWhole condition && allWhole body && allWhole otherwise
  | .define _ parameters body => parameters.all (fun p => Expr.optionWhole p.2) && allWhole body

def allWhole : List Node → Bool
  | node :: rest => isWhole node && allWhole rest
  | [] => true

end

end Node

namespace Node

theorem allWhole_iff {nodes : List Node} :
    allWhole nodes = true ↔ ∀ node ∈ nodes, node.isWhole = true := by
  induction nodes with
  | nil => simp [allWhole]
  | cons node rest ih => simp [allWhole, ih]

theorem allWhole_cons {node : Node} {nodes : List Node} (h : node.isWhole = true)
    (h' : allWhole nodes = true) : allWhole (node :: nodes) = true :=
  Bool.and_eq_true_iff.2 ⟨h, h'⟩

theorem allWhole_reverse {nodes : List Node} (h : allWhole nodes = true) :
    allWhole nodes.reverse = true :=
  allWhole_iff.2 fun node hnode => allWhole_iff.1 h node (List.mem_reverse.1 hnode)

end Node

/-! ## Segments -/

def Tag.isWhole : Tag → Bool
  | .set _ value => value.isWhole
  | .ifTag test | .elifTag test => test.isWhole
  | .forTag _ source condition => source.isWhole && Expr.optionWhole condition
  | .defineTag _ parameters => parameters.all fun p => Expr.optionWhole p.2
  | .elseTag | .endIf | .endFor | .endDefine => true

def Segment.isWhole : Segment → Bool
  | .tag _ _ statement => statement.isWhole
  | .output _ _ value => value.isWhole
  | .text _ => true

namespace Segment

theorem isWhole_joined {segments : List Segment}
    (h : ∀ segment ∈ segments, segment.isWhole = true) :
    ∀ segment ∈ joined segments, segment.isWhole = true := by
  fun_induction joined segments with
  | case1 => exact h
  | case2 s rest t others hrest ih =>
    rw [hrest] at ih
    exact List.forall_mem_cons.2
      ⟨rfl, (List.forall_mem_cons.1 (ih (List.forall_mem_cons.1 h).2)).2⟩
  | case3 s rest hrest ih =>
    exact List.forall_mem_cons.2 ⟨rfl, ih (List.forall_mem_cons.1 h).2⟩
  | case4 segment rest hsegment ih =>
    obtain ⟨hsegment, hrest⟩ := List.forall_mem_cons.1 h
    exact List.forall_mem_cons.2 ⟨hsegment, ih hrest⟩

theorem isWhole_trimmed {left : Bool} {segments : List Segment}
    (h : ∀ segment ∈ segments, segment.isWhole = true) :
    ∀ segment ∈ trimmed left segments, segment.isWhole = true := by
  fun_induction trimmed left segments with
  | case1 => exact h
  | case2 left s rest ih => exact List.forall_mem_cons.2 ⟨rfl, ih (List.forall_mem_cons.1 h).2⟩
  | case3 left before after value rest ih =>
    obtain ⟨hsegment, hrest⟩ := List.forall_mem_cons.1 h
    exact List.forall_mem_cons.2 ⟨hsegment, ih hrest⟩
  | case4 left before after statement rest ih =>
    obtain ⟨hsegment, hrest⟩ := List.forall_mem_cons.1 h
    exact List.forall_mem_cons.2 ⟨hsegment, ih hrest⟩

end Segment

/-! ## Assembling -/

/-- Whether all texts that an open statement writes out are whole. -/
def Pending.isWhole : Pending → Bool
  | .yes test _ outer => test.isWhole && Node.allWhole outer
  | .no test _ body outer => test.isWhole && Node.allWhole body && Node.allWhole outer
  | .loop _ source condition outer =>
    source.isWhole && Expr.optionWhole condition && Node.allWhole outer
  | .otherwise _ source condition body outer =>
    source.isWhole && Expr.optionWhole condition && Node.allWhole body && Node.allWhole outer
  | .define _ parameters outer =>
    parameters.all (fun p => Expr.optionWhole p.2) && Node.allWhole outer

namespace Assembly

/-- All texts that have been assembled are whole. -/
structure IsWhole (a : Assembly) : Prop where
  pending : ∀ p ∈ a.pending, p.isWhole = true
  nodes : Node.allWhole a.nodes = true

variable {a a' : Assembly}

theorem isWhole_endCondition {body : List Node} {pending : List Pending}
    (hbody : Node.allWhole body = true) (hpending : ∀ p ∈ pending, p.isWhole = true)
    (h : endCondition body pending = some a) : a.IsWhole := by
  have hcond : ∀ {test yes no outer}, Expr.isWhole test = true → Node.allWhole yes = true →
      Node.allWhole no = true → Node.allWhole outer = true →
      Node.allWhole (.cond test yes no :: outer) = true := fun ht hy hn ho =>
    Node.allWhole_cons (by simp [Node.isWhole, ht, hy, hn]) ho
  fun_induction endCondition body pending generalizing a
  case case1 body test outer rest nodes ih =>
    obtain ⟨hyes, hrest⟩ := List.forall_mem_cons.1 hpending
    simp only [Pending.isWhole, Bool.and_eq_true] at hyes
    exact ih (hcond hyes.1 (Node.allWhole_reverse hbody) rfl hyes.2) hrest h
  case case2 body test chained outer rest nodes _ =>
    obtain ⟨hyes, hrest⟩ := List.forall_mem_cons.1 hpending
    simp only [Pending.isWhole, Bool.and_eq_true] at hyes
    cases h
    exact ⟨hrest, hcond hyes.1 (Node.allWhole_reverse hbody) rfl hyes.2⟩
  case case3 body test yes outer rest nodes ih =>
    obtain ⟨hno, hrest⟩ := List.forall_mem_cons.1 hpending
    simp only [Pending.isWhole, Bool.and_eq_true] at hno
    exact ih (hcond hno.1.1 hno.1.2 (Node.allWhole_reverse hbody) hno.2) hrest h
  case case4 body test chained yes outer rest nodes _ =>
    obtain ⟨hno, hrest⟩ := List.forall_mem_cons.1 hpending
    simp only [Pending.isWhole, Bool.and_eq_true] at hno
    cases h
    exact ⟨hrest, hcond hno.1.1 hno.1.2 (Node.allWhole_reverse hbody) hno.2⟩
  case case5 => cases h

theorem IsWhole.push (ha : a.IsWhole) {make : List Node → Pending}
    (h : (make a.nodes).isWhole = true) : (a.push make).IsWhole :=
  ⟨List.forall_mem_cons.2 ⟨h, ha.pending⟩, rfl⟩

theorem IsWhole.add (ha : a.IsWhole) {node : Node} (h : node.isWhole = true) :
    (a.add node).IsWhole :=
  ⟨ha.pending, Node.allWhole_cons h ha.nodes⟩

theorem isWhole_stepTag {tag : Tag} (ha : a.IsWhole) (htag : tag.isWhole = true)
    (h : a.stepTag tag = some a') : a'.IsWhole := by
  have hnodes := Node.allWhole_reverse ha.nodes
  have hpending := ha.pending
  cases tag with
  | ifTag test =>
    cases h
    exact ha.push (Bool.and_eq_true_iff.2 ⟨htag, ha.nodes⟩)
  | elifTag test =>
    rw [stepTag] at h
    split at h <;> cases h
    next first chained outer rest heq =>
      rw [heq] at hpending
      obtain ⟨hyes, hrest⟩ := List.forall_mem_cons.1 hpending
      simp only [Pending.isWhole, Bool.and_eq_true] at hyes
      refine ⟨List.forall_mem_cons.2 ⟨?_, List.forall_mem_cons.2 ⟨?_, hrest⟩⟩, rfl⟩
      · exact Bool.and_eq_true_iff.2 ⟨htag, rfl⟩
      · simp [Pending.isWhole, hyes.1, hyes.2, hnodes]
  | elseTag =>
    rw [stepTag] at h
    split at h <;> cases h
    all_goals
      next heq =>
      rw [heq] at hpending
      obtain ⟨hopen, hrest⟩ := List.forall_mem_cons.1 hpending
      simp only [Pending.isWhole, Bool.and_eq_true] at hopen
      refine ⟨List.forall_mem_cons.2 ⟨?_, hrest⟩, rfl⟩
      simp [Pending.isWhole, hopen, hnodes]
  | endIf => exact isWhole_endCondition ha.nodes hpending h
  | forTag target source condition =>
    cases h
    exact ha.push (Bool.and_eq_true_iff.2 ⟨htag, ha.nodes⟩)
  | endFor =>
    rw [stepTag] at h
    split at h <;> cases h
    all_goals
      next heq =>
      rw [heq] at hpending
      obtain ⟨hopen, hrest⟩ := List.forall_mem_cons.1 hpending
      simp only [Pending.isWhole, Bool.and_eq_true] at hopen
      refine ⟨hrest, Node.allWhole_cons ?_ hopen.2⟩
      simp [Node.isWhole, Node.allWhole, hopen, hnodes]
  | set target value =>
    cases h
    exact ha.add htag
  | defineTag name parameters =>
    cases h
    exact ha.push (Bool.and_eq_true_iff.2 ⟨htag, ha.nodes⟩)
  | endDefine =>
    rw [stepTag] at h
    split at h <;> cases h
    next name parameters outer rest heq =>
      rw [heq] at hpending
      obtain ⟨hopen, hrest⟩ := List.forall_mem_cons.1 hpending
      simp only [Pending.isWhole, Bool.and_eq_true] at hopen
      exact ⟨hrest, Node.allWhole_cons (Bool.and_eq_true_iff.2 ⟨hopen.1, hnodes⟩) hopen.2⟩

theorem isWhole_step {segment : Segment} (ha : a.IsWhole) (hsegment : segment.isWhole = true)
    (h : a.step segment = some a') : a'.IsWhole := by
  cases segment with
  | text s =>
    rw [step] at h
    cases h
    split_ifs
    · exact ha
    · exact ha.add rfl
  | output before after value =>
    cases h
    exact ha.add hsegment
  | tag before after statement => exact isWhole_stepTag ha hsegment h

theorem isWhole_foldlM {segments : List Segment} (ha : a.IsWhole)
    (hsegments : ∀ segment ∈ segments, segment.isWhole = true)
    (h : segments.foldlM step a = some a') : a'.IsWhole := by
  induction segments generalizing a with
  | nil =>
    cases h
    exact ha
  | cons segment rest ih =>
    obtain ⟨hsegment, hrest⟩ := List.forall_mem_cons.1 hsegments
    rw [List.foldlM_cons] at h
    obtain ⟨b, hb, h⟩ := Option.bind_eq_some_iff.1 h
    exact ih (isWhole_step ha hsegment hb) hrest h

end Assembly

/-- Segments with whole texts are a template with whole texts. -/
theorem Template.allWhole_of_segments {segments : List Segment} {t : Template}
    (h : ∀ segment ∈ segments, segment.isWhole = true) (ht : ofSegments? segments = some t) :
    Node.allWhole t.nodes = true := by
  obtain ⟨a, ha, ht⟩ := Option.bind_eq_some_iff.1 ht
  have hstart : Assembly.IsWhole {} := ⟨List.forall_mem_nil _, rfl⟩
  have hwhole := Assembly.isWhole_foldlM hstart
    (Segment.isWhole_trimmed (Segment.isWhole_joined h)) ha
  rw [Assembly.finish] at ht
  split_ifs at ht
  cases ht
  exact Node.allWhole_reverse hwhole.nodes

end ContainerDocs

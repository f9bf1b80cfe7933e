import ContainerDocs.Proofs.Template.Structure
import ContainerDocs.Report.Render
import Mathlib.Data.List.Forall2

/-!
# What templates print

Nodes print their texts one after another. A loop over records prints a text for each of them, as
long as its body does.

## Main definitions

* `Scope.round` — the values of names in a round of a loop.

## Main statements

* `Scope.runAll_append`, `Scope.runAll_ofText`, `Scope.runAll_output`, `Scope.runAll_cond`,
  `Scope.runAll_loop` — what nodes print.
* `Scope.printsAs_part`, `Scope.printsAs_itemName` — what expressions print.
-/

namespace ContainerDocs

def Parts.line (cells : List Text) : Text := "\n| " ++ Text.join " | " cells ++ " |"

namespace Scope

variable {escaping : Bool} {s s' s'' : Scope} {nodes nodes' : List Node} {t u : Text} {v : Value}

@[simp] theorem ok_bind {ε α β : Type} (a : α) (f : α → Except ε β) :
    ((Except.ok a : Except ε α) >>= f) = f a := rfl

theorem exists_of_bind_eq_ok {ε α β : Type} {x : Except ε α} {f : α → Except ε β} {b : β}
    (h : (x >>= f) = .ok b) : ∃ a, x = .ok a ∧ f a = .ok b := by
  cases x with
  | error e => cases h
  | ok a => exact ⟨a, rfl, h⟩

/-! ## What nodes and expressions do

The equations of the nodes and expressions below, each stated once: the equations that come with the
two recursions speak about all of their cases. -/

section Equations

variable (escaping : Bool) (s : Scope) (e : Expr) (es : List Expr)

theorem run_output_eq : run escaping s (.output e) =
    (eval escaping s e >>= fun v => .ok (s, shown escaping v)) := rfl

theorem run_cond_eq (yes no : List Node) : run escaping s (.cond e yes no) =
    (eval escaping s e >>= fun v =>
      if v.isTrue then runAll escaping s yes else runAll escaping s no) := rfl

theorem runAll_cons_eq (node : Node) (nodes : List Node) : runAll escaping s (node :: nodes) =
    (run escaping s node >>= fun r =>
      runAll escaping r.1 nodes >>= fun r' => .ok (r'.1, r.2 ++ r'.2)) := rfl

theorem eval_attribute_eq (name : String) : eval escaping s (.attribute e name) =
    (eval escaping s e >>= fun v => v.field name) := rfl

theorem eval_pipe_eq (filter : String) : eval escaping s (e.pipe filter es) =
    (eval escaping s e >>= fun v =>
      evalAll escaping s es >>= fun vs => Filter.apply escaping filter v vs []) := rfl

theorem eval_send_eq (method : String) : eval escaping s (e.send method es) =
    (eval escaping s e >>= fun v => evalAll escaping s es >>= fun vs => v.send method vs) := rfl

theorem eval_or_eq (other : Expr) : eval escaping s (.or e other) =
    (eval escaping s e >>= fun v => if v.isTrue then .ok v else eval escaping s other) := rfl

theorem evalAll_cons_eq : evalAll escaping s (e :: es) =
    (eval escaping s e >>= fun v => evalAll escaping s es >>= fun vs => .ok (v :: vs)) := rfl

end Equations

/-! ## Nodes one after another -/

theorem runAll_nil (escaping : Bool) (s : Scope) : runAll escaping s [] = .ok (s, []) := rfl

theorem runAll_cons {node : Node} (h : run escaping s node = .ok (s', t))
    (h' : runAll escaping s' nodes = .ok (s'', u)) :
    runAll escaping s (node :: nodes) = .ok (s'', t ++ u) := by
  rw [runAll_cons_eq, h, ok_bind, h']
  rfl

theorem runAll_append (h : runAll escaping s nodes = .ok (s', t))
    (h' : runAll escaping s' nodes' = .ok (s'', u)) :
    runAll escaping s (nodes ++ nodes') = .ok (s'', t ++ u) := by
  induction nodes generalizing s t with
  | nil =>
    cases h
    exact h'
  | cons node nodes ih =>
    rw [runAll_cons_eq] at h
    cases hnode : run escaping s node with
    | error f =>
      rw [hnode] at h
      cases h
    | ok r =>
      obtain ⟨s₁, t₁⟩ := r
      rw [hnode, ok_bind] at h
      cases hnodes : runAll escaping s₁ nodes with
      | error f =>
        rw [hnodes] at h
        cases h
      | ok r =>
        obtain ⟨s₂, t₂⟩ := r
        rw [hnodes] at h
        cases h
        rw [List.append_assoc]
        exact runAll_cons hnode (ih hnodes)

theorem runAll_ofText (escaping : Bool) (s : Scope) (text : String) :
    runAll escaping s (Node.ofText text) = .ok (s, text) := by
  unfold Node.ofText
  split_ifs with h
  · rw [String.isEmpty_iff] at h
    subst h
    rfl
  · have hnode : run escaping s (.text text) = .ok (s, text) := rfl
    have hprint := runAll_cons hnode (runAll_nil escaping s)
    rwa [List.append_nil] at hprint

def PrintsAs (escaping : Bool) (s : Scope) (e : Expr) (t : Text) : Prop :=
  ∃ v, eval escaping s e = .ok v ∧ shown escaping v = t

theorem runAll_output {e : Expr} (h : PrintsAs escaping s e t)
    (h' : runAll escaping s nodes = .ok (s', u)) :
    runAll escaping s (.output e :: nodes) = .ok (s', t ++ u) := by
  obtain ⟨v, hv, rfl⟩ := h
  refine runAll_cons ?_ h'
  rw [run_output_eq, hv]
  rfl

theorem runAll_last_output {e : Expr} (h : PrintsAs escaping s e t) :
    runAll escaping s [.output e] = .ok (s, t) := by
  have hprint := runAll_output h (runAll_nil escaping s)
  rwa [List.append_nil] at hprint

/-- A condition prints the branch that its test chooses. -/
theorem runAll_cond {test : Expr} {yes no : List Node} (h : eval escaping s test = .ok v)
    (hbranch : runAll escaping s (if v.isTrue then yes else no) = .ok (s', t))
    (h' : runAll escaping s' nodes = .ok (s'', u)) :
    runAll escaping s (.cond test yes no :: nodes) = .ok (s'', t ++ u) := by
  refine runAll_cons ?_ h'
  rw [run_cond_eq, h, ok_bind]
  split_ifs at hbranch ⊢ <;> exact hbranch

/-- A condition on a list prints one branch for an empty list and the other one else. -/
theorem runAll_cond_list {α : Type} {test : Expr} {yes no : List Node} {as : List α}
    {value : α → Value} {x : Text} (h : eval escaping s test = .ok (.list (as.map value)))
    (hyes : runAll escaping s yes = .ok (s', t)) (hno : runAll escaping s no = .ok (s', u))
    (h' : runAll escaping s' nodes = .ok (s'', x)) :
    runAll escaping s (.cond test yes no :: nodes) =
      .ok (s'', (if as.isEmpty then u else t) ++ x) := by
  refine runAll_cond h ?_ h'
  cases as with
  | nil => exact hno
  | cons a as => exact hyes

/-! ## Loops -/

def round (s : Scope) (name : String) (place v : Value) : Scope :=
  (({ s with isInner := true } : Scope).set "loop" place).set name v

def roundText (escaping : Bool) (s : Scope) (name : String) (body : List Node) (place v : Value) :
    Except Fault Text := do
  return (← runAll escaping (s.round name place v) body).2

theorem roundText_eq {name : String} {body : List Node} {place : Value}
    (h : runAll escaping (s.round name place v) body = .ok (s', t)) :
    roundText escaping s name body place v = .ok t := by
  rw [roundText, h]
  rfl

/-- A loop over a list prints what its rounds print, or fails as one of them does. -/
theorem run_loop_eq {name : String} {source : Expr} {body : List Node} {vs : List Value}
    (h : eval escaping s source = .ok (.list vs)) :
    run escaping s (.loop (.one name) source none body []) =
      (rounds (roundText escaping s name body) vs.length 0 vs).map fun t => (s, t) := by
  have hloop : run escaping s (.loop (.one name) source none body []) =
      (eval escaping s source >>= fun v => v.elements >>= fun vs =>
        if vs.isEmpty then .ok (s, [])
        else rounds (roundText escaping s name body) vs.length 0 vs >>= fun t => .ok (s, t)) := rfl
  have helements : (Value.list vs).elements = .ok vs := rfl
  rw [hloop, h, ok_bind, helements, ok_bind]
  by_cases hempty : vs = []
  · subst hempty
    rfl
  · rw [if_neg (by simpa using hempty)]
    cases rounds (roundText escaping s name body) vs.length 0 vs <;> rfl

/-- A loop over a list prints what its rounds print. -/
theorem run_loop {name : String} {source : Expr} {body : List Node} {vs : List Value}
    (h : eval escaping s source = .ok (.list vs))
    (hrounds : rounds (roundText escaping s name body) vs.length 0 vs = .ok t) :
    run escaping s (.loop (.one name) source none body []) = .ok (s, t) := by
  rw [run_loop_eq h, hrounds]
  rfl

theorem rounds_map {α : Type} {round : Value → Value → Except Fault Text} {value : α → Value}
    (text : α → Text) {as : List α} (h : ∀ a ∈ as, ∀ place, round place (value a) = .ok (text a))
    (length index : Nat) : rounds round length index (as.map value) = .ok (as.flatMap text) := by
  induction as generalizing index with
  | nil => rfl
  | cons a as ih =>
    obtain ⟨ha, has⟩ := List.forall_mem_cons.1 h
    rw [List.map_cons, rounds, ha, ok_bind, ih has, List.flatMap_cons]
    rfl

/-- A loop prints a text for each element, if its body does so in every round. -/
theorem runAll_loop {α : Type} {name : String} {source : Expr} {body : List Node} {as : List α}
    {value : α → Value} (text : α → Text) (h : eval escaping s source = .ok (.list (as.map value)))
    (hbody : ∀ a ∈ as, ∀ place, ∃ s', runAll escaping (s.round name place (value a)) body =
      .ok (s', text a)) (h' : runAll escaping s nodes = .ok (s', t)) :
    runAll escaping s (.loop (.one name) source none body [] :: nodes) =
      .ok (s', as.flatMap text ++ t) := by
  refine runAll_cons (run_loop h (rounds_map text (fun a ha place => ?_) _ _)) h'
  obtain ⟨s', hs'⟩ := hbody a ha place
  exact roundText_eq hs'

/-! ## Named parts -/

def part (escaping : Bool) (s : Scope) (names : List String) (body : List Node)
    (globals : List (String × Value)) (vs : List Value) : Except Fault Text := do
  let locals ← parameterValues (names.map (·, none)) vs
  return (← runAll escaping ⟨locals, globals, s.parts, true⟩ body).2

theorem parameterValues_zip {names : List String} {vs : List Value}
    (h : names.length = vs.length) :
    parameterValues (names.map (·, none)) vs = .ok (names.zip vs) := by
  induction names generalizing vs with
  | nil =>
    obtain rfl : vs = [] := List.length_eq_zero_iff.1 h.symm
    rfl
  | cons name names ih =>
    cases vs with
    | nil => cases h
    | cons v vs =>
      rw [List.map_cons, parameterValues, ih (Nat.succ.inj h)]
      rfl

theorem run_define (escaping : Bool) (s : Scope) (name : String) (names : List String)
    (body : List Node) : run escaping s (.define name (names.map (·, none)) body) =
      .ok ({ s with parts := (name, part escaping s names body) :: s.parts }, []) := by
  have hdefaults : ∀ f : String × Option Expr → Except Fault (String × Option Value),
      (∀ n, f (n, none) = .ok (n, none)) →
      ∀ ns : List String, (ns.map (·, none)).mapM f = .ok (ns.map (·, none)) := by
    intro f hf ns
    induction ns with
    | nil => rfl
    | cons n ns ih =>
      rw [List.map_cons, List.mapM_cons, hf, ih]
      rfl
  have hdefine (parameters : List (String × Option Expr)) :
      run escaping s (.define name parameters body) =
        ((parameters.mapM fun p => do return (p.1, ← evalOption escaping s p.2)) >>=
          fun defaults => .ok ({ s with
            parts := (name, fun globals vs => do
              let locals ← parameterValues defaults vs
              return (← runAll escaping ⟨locals, globals, s.parts, true⟩ body).2) :: s.parts },
            [])) := rfl
  rw [hdefine, hdefaults _ fun _ => rfl, ok_bind]
  rfl

/-- A named part prints what its body prints when its parameters have values. -/
theorem printsAs_part {name : String} {names : List String} {body : List Node} {args : List Expr}
    {vs : List Value} {s₀ : Scope}
    (hpart : Value.lookup s.parts name = some (part escaping s₀ names body))
    (hvs : evalAll escaping s args = .ok vs) (hlength : names.length = vs.length)
    (hbody : runAll escaping ⟨names.zip vs, s.globals, s₀.parts, true⟩ body = .ok (s', t)) :
    PrintsAs escaping s (.call (.ident name) args []) t := by
  have hprint : eval escaping s (.call (.ident name) args []) = .ok (.text escaping t) := by
    change (evalAll escaping s args >>= _) = _
    rw [hvs, ok_bind, hpart]
    dsimp only
    rw [part, parameterValues_zip hlength, ok_bind, hbody]
    rfl
  refine ⟨_, hprint, ?_⟩
  cases escaping <;> rfl

/-! ## Rows of tables -/

open Parts

theorem runAll_rowNodes {es : List Expr} {ts : List Text}
    (h : List.Forall₂ (PrintsAs escaping s) es ts) :
    runAll escaping s (rowNodes es) = .ok (s, line ts) := by
  have hcells : runAll escaping s (cellNodes es) = .ok (s, Text.join " | " ts) := by
    induction h with
    | nil => rfl
    | @cons e t es ts ht hrest ih =>
      cases hrest with
      | nil => exact runAll_last_output ht
      | cons ht' hrest' =>
        rw [cellNodes, Text.join, List.append_assoc]
        · exact runAll_output ht (runAll_append (runAll_ofText ..) ih)
        · simp
        · simp
  rw [rowNodes, line, List.append_assoc]
  exact runAll_append (runAll_ofText ..) (runAll_append hcells (runAll_ofText ..))

/-! ## Names -/

theorem lookup_cons {α : Type} (name other : String) (a : α) (fields : List (String × α)) :
    Value.lookup ((name, a) :: fields) other =
      if name = other then some a else Value.lookup fields other := by
  rw [Value.lookup, List.find?_cons]
  by_cases h : name = other <;> simp [h, Value.lookup]

@[simp] theorem find_round (s : Scope) (name : String) (place v : Value) :
    (s.round name place v).find name = v := by
  simp [round, find, set, lookup_cons]

/-- A round gives no other name than its own a value. -/
theorem find_round_of_ne (s : Scope) {name other : String} (place v : Value) (h : other ≠ name)
    (hloop : other ≠ "loop") : (s.round name place v).find other = s.find other := by
  simp [round, find, set, lookup_cons, h.symm, hloop.symm]

theorem find_round_loop (s : Scope) {name : String} (place v : Value) (h : name ≠ "loop") :
    (s.round name place v).find "loop" = place := by
  simp [round, find, set, lookup_cons, h]

/-! ## Expressions -/

theorem eval_field {object name : String} {w : Value} (h : s.find object = v)
    (hfield : v.field name = .ok w) : eval escaping s (field object name) = .ok w := by
  have hobject : eval escaping s (.ident object) = .ok v := congrArg Except.ok h
  rw [field, eval_attribute_eq, hobject, ok_bind, hfield]

theorem eval_attribute {e : Expr} {name : String} {w : Value} (h : eval escaping s e = .ok v)
    (hfield : v.field name = .ok w) : eval escaping s (.attribute e name) = .ok w := by
  rw [eval_attribute_eq, h, ok_bind, hfield]

theorem eval_pipe {e : Expr} {filter : String} {w : Value} (h : eval escaping s e = .ok v)
    (hfilter : Filter.apply escaping filter v [] [] = .ok w) :
    eval escaping s (e.pipe filter) = .ok w := by
  have hargs : evalAll escaping s [] = .ok [] := rfl
  rw [eval_pipe_eq, h, ok_bind, hargs, ok_bind, hfilter]

theorem eval_pipe_args {e : Expr} {filter : String} {args : List Expr} {vs : List Value}
    {w : Value} (h : eval escaping s e = .ok v) (hargs : evalAll escaping s args = .ok vs)
    (hfilter : Filter.apply escaping filter v vs [] = .ok w) :
    eval escaping s (e.pipe filter args) = .ok w := by
  rw [eval_pipe_eq, h, ok_bind, hargs, ok_bind, hfilter]

theorem eval_send {e : Expr} {method : String} {args : List Expr} {vs : List Value} {w : Value}
    (h : eval escaping s e = .ok v) (hargs : evalAll escaping s args = .ok vs)
    (hsend : v.send method vs = .ok w) : eval escaping s (e.send method args) = .ok w := by
  rw [eval_send_eq, h, ok_bind, hargs, ok_bind, hsend]

theorem evalAll_singleton {e : Expr} (h : eval escaping s e = .ok v) :
    evalAll escaping s [e] = .ok [v] := by
  rw [evalAll_cons_eq, h]
  rfl

theorem eval_orHyphen {e : Expr} (h : eval escaping s e = .ok (.plain t)) :
    eval escaping s (orHyphen e) = .ok (.plain (if t.isEmpty then Text.ofString "-" else t)) := by
  rw [orHyphen, eval_or_eq, h, ok_bind]
  cases t <;> rfl

theorem toNat?_one : (String.ofList ['1']).toNat? = some 1 := by
  simp [String.toNat?, String.Slice.toNat?, String.Slice.isNat]

/-- A number in the format with one digit after the point. -/
theorem fill_oneDigit (x : Binary64) :
    Filter.fill 5 (Text.ofString "%.1f") [.float x] =
      .ok (Text.ofString (Format.fixed 1 x)) := by
  have hpattern : Text.ofString "%.1f" =
      [CodePoint.ofChar '%', CodePoint.ofChar '.', CodePoint.ofChar '1', CodePoint.ofChar 'f'] :=
    rfl
  have hdigits : Filter.digitsOf [CodePoint.ofChar '1', CodePoint.ofChar 'f'] = ['1'] := by decide
  rw [hpattern]
  simp only [Filter.fill, hdigits]
  simp only [toNat?_one, Filter.fixed, Value.float?, CodePoint.ofChar]
  exact congrArg Except.ok (List.append_nil _)

theorem eval_oneDigit {e : Expr} {x : Binary64} (h : eval escaping s e = .ok (.float x)) :
    eval escaping s (oneDigit e) = .ok (.plain (Text.ofString (Format.fixed 1 x))) := by
  refine eval_pipe_args rfl (evalAll_singleton h) ?_
  have happly : Filter.apply escaping "format" (.ofString "%.1f") [.float x] [] =
      (do return .plain (← Filter.fill 5 (Text.ofString "%.1f") [.float x])) := rfl
  exact happly.trans (by rw [fill_oneDigit]; rfl)

/-! ## Items -/

section Item

open Markdown

variable {i : Item} (h : s.find "item" = .item i)
include h

theorem printsAs_itemName : PrintsAs false s itemName (Cell.code i.name) :=
  ⟨_, eval_pipe (eval_field h rfl) rfl, rfl⟩

theorem printsAs_itemDescription : PrintsAs false s itemDescription (Cell.plain i.description) :=
  ⟨_, eval_pipe (eval_field h rfl) rfl, rfl⟩

theorem printsAs_itemValue : PrintsAs false s itemValue (Cell.code i.value) :=
  ⟨_, eval_pipe (eval_field h rfl) rfl, rfl⟩

theorem printsAs_itemType : PrintsAs false s (field "item" "type") i.kind.keyword :=
  ⟨_, eval_field h rfl, rfl⟩

theorem printsAs_requiredMark {options : ReportOptions}
    (hoptions : s.find "options" = .options options) :
    PrintsAs false s requiredMark (Cell.requiredMark i.required options.noSymbols) := by
  have hrequired : eval false s (field "item" "required") = .ok (.bool i.required) :=
    eval_field h rfl
  have hsymbols : eval false s noSymbols = .ok (.bool options.noSymbols) :=
    eval_field hoptions rfl
  refine ⟨.plain (Cell.requiredMark i.required options.noSymbols), ?_, rfl⟩
  rw [requiredMark, eval_pipe_eq, hrequired, ok_bind, evalAll_singleton hsymbols]
  rfl

end Item

/-- A loop over items prints a line for each of them, if the expressions of its row print cells. -/
theorem runAll_itemRows {source : Expr} {es : List Expr} {is : List Item} {cells : Item → List Text}
    (h : eval escaping s source = .ok (.list (is.map .item)))
    (hcells : ∀ i s', find s' "item" = .item i → find s' "options" = s.find "options" →
      List.Forall₂ (PrintsAs escaping s') es (cells i))
    (h' : runAll escaping s nodes = .ok (s', t)) :
    runAll escaping s (.loop (.one "item") source none (rowNodes es) [] :: nodes) =
      .ok (s', (is.flatMap fun i => line (cells i)) ++ t) := by
  refine runAll_loop _ h (fun i _ place => ⟨_, runAll_rowNodes (hcells i _ ?_ ?_)⟩) h'
  · exact find_round ..
  · exact find_round_of_ne s place (.item i) (by decide) (by decide)

/-- The same for a loop at the end. -/
theorem runAll_last_itemRows {source : Expr} {es : List Expr} {is : List Item}
    {cells : Item → List Text} (h : eval escaping s source = .ok (.list (is.map .item)))
    (hcells : ∀ i s', find s' "item" = .item i → find s' "options" = s.find "options" →
      List.Forall₂ (PrintsAs escaping s') es (cells i)) :
    runAll escaping s [.loop (.one "item") source none (rowNodes es) []] =
      .ok (s, is.flatMap fun i => line (cells i)) := by
  have hprint := runAll_itemRows h hcells (runAll_nil escaping s)
  rwa [List.append_nil] at hprint

end Scope

theorem Template.render_eq {t : Template} {escaping : Bool} {values : List (String × Value)}
    {s : Scope} {text : Text}
    (h : Scope.runAll escaping { globals := values } t.nodes = .ok (s, text)) :
    t.render escaping values = .ok text := by
  rw [render, h]
  rfl

end ContainerDocs

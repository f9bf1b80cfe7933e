import ContainerDocs.Proofs.Report.Whole
import ContainerDocs.Proofs.Template.Whole
import ContainerDocs.Report.Evaluate

/-!
# What templates print is whole

A template all of whose texts are whole prints a whole text for whole values: neither a filter nor
an operator makes a half of a surrogate pair, and no statement does.

## Main statements

* `Filter.isWhole_apply` — filters.
* `Scope.isWhole_operate` — operators.
* `Template.isWhole_render` — what a template prints.
-/

namespace ContainerDocs

open Text

/-! ## Filters -/

namespace Filter

open Value

variable {escaping : Bool} {v w : Value} {arguments : List Value} {named : List (String × Value)}

theorem isWhole_argument? (h : ∀ v ∈ arguments, v.IsWhole) (h' : ∀ n ∈ named, n.2.IsWhole)
    {index : Nat} {name : String} (hv : argument? arguments named index name = some v) :
    v.IsWhole := by
  rw [argument?] at hv
  cases ha : arguments[index]? with
  | none =>
    rw [ha] at hv
    exact .of_lookup h' hv
  | some a =>
    rw [ha] at hv
    cases hv
    exact h _ (List.mem_of_getElem? ha)

theorem isWhole_join {separator : Option Value} (hseparator : ∀ v ∈ separator, v.IsWhole)
    {items : List Value} (hitems : ∀ v ∈ items, v.IsWhole) :
    (join escaping separator items).IsWhole := by
  unfold join
  extract_lets isSafe between shown
  have hbetween : between.IsWhole := by
    cases separator with
    | none => exact isWhole_plain isWhole_nil
    | some v => exact hseparator v rfl
  split_ifs
  · have hshown : ∀ v : Value, v.IsWhole → (shown v).IsWhole := by
      intro v hv
      dsimp only [shown]
      split_ifs
      · exact hv.printed
      · exact Html.isWhole_escape hv.printed
    refine .text true (Text.isWhole_join (hshown _ hbetween) fun t ht => ?_)
    obtain ⟨v, hv, rfl⟩ := List.mem_map.1 ht
    exact hshown v (hitems v hv)
  · refine isWhole_plain (Text.isWhole_join hbetween.printed fun t ht => ?_)
    obtain ⟨v, hv, rfl⟩ := List.mem_map.1 ht
    exact (hitems v hv).printed

theorem isWhole_onText {f : Text → Text} (hf : ∀ t : Text, t.IsWhole → (f t).IsWhole)
    (h : v.IsWhole) : (onText f v).IsWhole := by
  rw [onText.eq_def]
  split
  · cases h with
    | text safe ht => exact .text _ (hf _ ht)
  · exact isWhole_plain (hf _ h.printed)

theorem isWhole_fixed {places : Nat} {t : Text} (h : fixed places v = .ok t) : t.IsWhole := by
  rw [fixed] at h
  split at h <;> cases h
  exact isWhole_ofString _

theorem isWhole_whole {t : Text} (h : whole v = .ok t) : t.IsWhole := by
  rw [whole.eq_def] at h
  split at h
  · cases h
    exact isWhole_ofChars _
  · split at h <;> cases h
    exact isWhole_ofChars _
  · cases h

theorem isWhole_fill {n : Nat} {pattern t : Text} {values : List Value} (hpattern : pattern.IsWhole)
    (hvalues : ∀ v ∈ values, v.IsWhole) (h : fill n pattern values = .ok t) : t.IsWhole := by
  fun_induction fill n pattern values generalizing t
  case case1 | case2 =>
    cases h
    exact isWhole_nil
  case case4 c rest values _ ih =>
    obtain ⟨u, hu, h⟩ := Scope.exists_of_bind_eq_ok h
    cases h
    obtain ⟨hc, hrest⟩ := isWhole_cons.1 hpattern
    exact isWhole_cons.2 ⟨hc, ih hrest hvalues hu⟩
  case case6 rest ih =>
    obtain ⟨u, hu, h⟩ := Scope.exists_of_bind_eq_ok h
    cases h
    obtain ⟨-, hrest⟩ := isWhole_cons.1 hpattern
    obtain ⟨hd, hrest⟩ := isWhole_cons.1 hrest
    exact isWhole_cons.2 ⟨hd, ih hrest hvalues hu⟩
  case case8 rest v values _ ih =>
    obtain ⟨u, hu, h⟩ := Scope.exists_of_bind_eq_ok h
    cases h
    obtain ⟨hv, hvalues⟩ := List.forall_mem_cons.1 hvalues
    exact hv.printed.append (ih (hpattern.of_subset (by simp)) hvalues hu)
  case case9 rest _ v values _ _ ih =>
    obtain ⟨x, hx, h⟩ := Scope.exists_of_bind_eq_ok h
    obtain ⟨u, hu, h⟩ := Scope.exists_of_bind_eq_ok h
    cases h
    exact (isWhole_whole hx).append
      (ih (hpattern.of_subset (by simp)) (List.forall_mem_cons.1 hvalues).2 hu)
  case case10 rest v values _ _ _ ih =>
    obtain ⟨x, hx, h⟩ := Scope.exists_of_bind_eq_ok h
    obtain ⟨u, hu, h⟩ := Scope.exists_of_bind_eq_ok h
    cases h
    exact (isWhole_fixed hx).append
      (ih (hpattern.of_subset (by simp)) (List.forall_mem_cons.1 hvalues).2 hu)
  case case11 rest v values ds rest' _ _ _ _ hdrop ih =>
    obtain ⟨x, hx, h⟩ := Scope.exists_of_bind_eq_ok h
    obtain ⟨u, hu, h⟩ := Scope.exists_of_bind_eq_ok h
    cases h
    have hrest : rest' ⊆ rest := fun c hc =>
      List.drop_subset ds.length rest (hdrop ▸ List.mem_cons_of_mem _ hc)
    exact (isWhole_fixed hx).append (ih
      (hpattern.of_subset fun c hc => List.mem_cons_of_mem _ (List.mem_cons_of_mem _ (hrest hc)))
      (List.forall_mem_cons.1 hvalues).2 hu)
  all_goals cases h

theorem isWhole_follow {steps : List (List Char)} (h : v.IsWhole) (hw : follow v steps = .ok w) :
    w.IsWhole := by
  induction steps generalizing v with
  | nil =>
    cases hw
    exact h
  | cons step rest ih =>
    rw [follow] at hw
    split at hw
    all_goals
      obtain ⟨next, hnext, hw⟩ := Scope.exists_of_bind_eq_ok hw
      exact ih (h.element hnext) hw

theorem isWhole_pick {path : Text} {other : Option Value} (hother : ∀ v ∈ other, v.IsWhole)
    (h : v.IsWhole) (hw : pick path other v = .ok w) : w.IsWhole := by
  obtain ⟨vs, hvs, hw⟩ := Scope.exists_of_bind_eq_ok hw
  obtain ⟨items, hitems, hw⟩ := Scope.exists_of_bind_eq_ok hw
  cases hw
  refine .list fun x hx => ?_
  obtain ⟨item, hitem, hfound⟩ := Traversal.exists_of_mem_mapM hitems x hx
  obtain ⟨found, hfollow, hfound⟩ := Scope.exists_of_bind_eq_ok hfound
  have hwhole := isWhole_follow (h.elements hvs item hitem) hfollow
  split at hfound
  · cases hfound
    exact hother _ rfl
  · cases hfound
    exact hwhole

theorem isWhole_badge {label url : Option Value} (h : v.IsWhole) (hlabel : ∀ v ∈ label, v.IsWhole)
    (hurl : ∀ v ∈ url, v.IsWhole) (hw : badge v label url = .ok w) : w.IsWhole := by
  rw [badge.eq_def] at hw
  split at hw
  next label safe url =>
    cases hw
    have hlabel := hlabel label rfl
    cases hurl _ rfl with
    | text _ hu => exact isWhole_plain (Cell.isWhole_badge _ h.printed hlabel.printed hu)
  · cases hw

theorem isWhole_cellText (h : v.IsWhole) : (cellText v).IsWhole := by
  rw [cellText.eq_def]
  split
  · exact isWhole_nil
  · exact h.printed

theorem isWhole_length (h : length v = .ok w) : w.IsWhole := by
  rw [length.eq_def] at h
  split at h <;> cases h <;> exact .int _

theorem isWhole_getD {vs : List Value} (h : ∀ v ∈ vs, v.IsWhole) {o : Option Value}
    (ho : ∀ v ∈ o, v ∈ vs) (reason : String) : (o.getD (.undefined reason)).IsWhole := by
  cases o with
  | none => exact .undefined reason
  | some v => exact h v (ho v rfl)

/-- Filters make no halves of surrogate pairs. -/
theorem isWhole_apply {name : String} (h : v.IsWhole) (ha : ∀ v ∈ arguments, v.IsWhole)
    (hn : ∀ n ∈ named, n.2.IsWhole) (hw : apply escaping name v arguments named = .ok w) :
    w.IsWhole := by
  have hargument : ∀ {index name}, ∀ v ∈ argument? arguments named index name, v.IsWhole :=
    fun v hv => isWhole_argument? ha hn hv
  have hcell := isWhole_cellText h
  rw [apply.eq_def] at hw
  extract_lets argument joined other strict at hw
  have hjoined : ∀ items : Value, items.IsWhole → joined items = .ok w → w.IsWhole := by
    intro items hitems hw
    obtain ⟨vs, hvs, hw⟩ := Scope.exists_of_bind_eq_ok hw
    cases hw
    exact isWhole_join hargument (hitems.elements hvs)
  have hother : other.IsWhole := by
    dsimp only [other]
    cases hd : argument 0 "default_value" with
    | none => exact isWhole_plain isWhole_nil
    | some d => exact hargument d hd
  split at hw
  · exact isWhole_length hw
  · exact isWhole_length hw
  · split at hw
    · obtain ⟨items, hitems, hw⟩ := Scope.exists_of_bind_eq_ok hw
      exact hjoined items (isWhole_pick (by simp) h hitems) hw
    · exact hjoined v h hw
  · cases hw
    exact isWhole_onText (fun _ => LetterCase.isWhole_upper) h
  · cases hw
    exact isWhole_onText (fun _ => LetterCase.isWhole_lower) h
  · cases hw
    split
    · exact isWhole_onText (fun _ ht => ht.trim _) h
    · exact isWhole_onText (fun _ ht => ht.trim _) h
  · obtain ⟨vs, hvs, hw⟩ := Scope.exists_of_bind_eq_ok hw
    cases hw
    exact isWhole_getD (h.elements hvs) (fun v hv => List.mem_of_mem_head? hv) _
  · obtain ⟨vs, hvs, hw⟩ := Scope.exists_of_bind_eq_ok hw
    cases hw
    exact isWhole_getD (h.elements hvs) (fun v hv => List.mem_of_getLast? hv) _
  · split at hw
    · exact isWhole_pick (fun d hd => .of_lookup hn hd) h hw
    · cases hw
  · cases hw
    split_ifs
    · exact hother
    · exact h
  · cases hw
    split_ifs
    · exact hother
    · exact h
  · cases hw
    exact .text true h.printed
  · cases hw
    split
    · exact h
    · exact .text true (Html.isWhole_escape h.printed)
  · cases hw
    split
    · exact h
    · exact .text true (Html.isWhole_escape h.printed)
  · cases hw
    exact isWhole_onText (fun _ ht => ht) h
  · obtain ⟨vs, hvs, hw⟩ := Scope.exists_of_bind_eq_ok hw
    cases hw
    exact .list (h.elements hvs)
  · obtain ⟨t, ht, hw⟩ := Scope.exists_of_bind_eq_ok hw
    cases hw
    exact isWhole_plain (isWhole_fill h.printed ha ht)
  · cases hw
    exact isWhole_plain (Cell.isWhole_plain hcell)
  · cases hw
    exact isWhole_plain (Cell.isWhole_code hcell)
  · cases hw
    exact isWhole_plain (Cell.isWhole_requiredMark _ _)
  · cases hw
    rw [severityMark.eq_def]
    split <;> exact isWhole_plain (Cell.isWhole_severityMark _ _)
  · exact isWhole_badge h hargument hargument hw
  · cases hw
    exact isWhole_plain (isWhole_ofChars _)
  · cases hw

end Filter

/-! ## Values of names -/

namespace Scope

open Value

def IsWholePart (part : List (String × Value) → List Value → Except Fault Text) : Prop :=
  ∀ globals vs t, (∀ f ∈ globals, f.2.IsWhole) → (∀ v ∈ vs, v.IsWhole) →
    part globals vs = .ok t → t.IsWhole

/-- All names have whole values. -/
structure IsWhole (s : Scope) : Prop where
  locals : ∀ f ∈ s.locals, f.2.IsWhole
  globals : ∀ f ∈ s.globals, f.2.IsWhole
  parts : ∀ p ∈ s.parts, IsWholePart p.2

variable {s s' : Scope} {v w : Value} {escaping : Bool}

theorem IsWhole.find (h : s.IsWhole) (name : String) : (s.find name).IsWhole := by
  rw [Scope.find]
  split
  next v hv =>
    cases hlocal : lookup s.locals name with
    | some x =>
      rw [hlocal] at hv
      cases hv
      exact .of_lookup h.locals hlocal
    | none =>
      rw [hlocal] at hv
      exact .of_lookup h.globals hv
  next =>
    split_ifs
    · exact .part name
    · exact .undefined _

theorem IsWhole.set (h : s.IsWhole) (name : String) (hv : v.IsWhole) : (s.set name v).IsWhole := by
  rw [Scope.set]
  split_ifs
  · exact ⟨List.forall_mem_cons.2 ⟨hv, h.locals⟩, h.globals, h.parts⟩
  · exact ⟨h.locals, List.forall_mem_cons.2 ⟨hv, h.globals⟩, h.parts⟩

theorem IsWhole.setAll (h : s.IsWhole) {pairs : List (String × Value)}
    (hpairs : ∀ p ∈ pairs, p.2.IsWhole) :
    (pairs.foldl (fun s p => s.set p.1 p.2) s).IsWhole := by
  induction pairs generalizing s with
  | nil => exact h
  | cons p pairs ih =>
    obtain ⟨hp, hpairs⟩ := List.forall_mem_cons.1 hpairs
    exact ih (h.set p.1 hp) hpairs

theorem IsWhole.bind (h : s.IsWhole) {target : Target} (hv : v.IsWhole)
    (hs : s.bind target v = .ok s') : s'.IsWhole := by
  cases target with
  | one name =>
    cases hs
    exact h.set name hv
  | several names =>
    obtain ⟨vs, hvs, hs⟩ := exists_of_bind_eq_ok hs
    split_ifs at hs
    cases hs
    exact h.setAll fun p hp => hv.elements hvs p.2 (List.of_mem_zip hp).2

/-! ## Operators -/

theorem isWhole_onInts {operator : Operator} {m n : Int} (h : onInts operator m n = .ok w) :
    w.IsWhole := by
  cases operator <;> rw [onInts] at h <;> try split_ifs at h
  all_goals first | cases h; exact .int _ | cases h; exact .float _ | cases h

theorem isWhole_onFloats {operator : Operator} {x y : Binary64}
    (h : onFloats operator x y = .ok w) : w.IsWhole := by
  cases operator <;> cases h <;> exact .float _

theorem repeated_subset {α : Type} (n : Int) (as : List α) : repeated n as ⊆ as := by
  intro a ha
  obtain ⟨bs, hbs, ha⟩ := List.mem_flatten.1 ha
  rwa [List.eq_of_mem_replicate hbs] at ha

theorem isWhole_repeatedText {safe : Bool} {t : Text} (h : t.IsWhole) {n : Option Int}
    (hw : n.elim unsupported (fun n => .ok (.text safe (repeated n t))) = .ok w) : w.IsWhole := by
  cases n with
  | none => cases hw
  | some n =>
    cases hw
    exact .text safe (h.of_subset (repeated_subset n t))

theorem isWhole_repeatedList {vs : List Value} (h : ∀ v ∈ vs, v.IsWhole) {n : Option Int}
    (hw : n.elim unsupported (fun n => .ok (.list (repeated n vs))) = .ok w) : w.IsWhole := by
  cases n with
  | none => cases hw
  | some n =>
    cases hw
    exact .list fun v hv => h v (repeated_subset n vs hv)

/-- Operators make no halves of surrogate pairs. -/
theorem isWhole_operate {operator : Operator} (hv : v.IsWhole) (hw : w.IsWhole) {x : Value}
    (h : operate operator v w = .ok x) : x.IsWhole := by
  rw [operate.eq_def] at h
  split at h
  · cases h
  · cases h
  split at h
  · exact isWhole_onInts h
  split at h
  · exact isWhole_onFloats h
  split at h
  · cases hv with
    | text _ ht =>
      cases hw with
      | text _ hu =>
        cases h
        exact isWhole_plain (ht.append hu)
  · cases hv with
    | text s ht =>
      cases hw with
      | text s' hu =>
        cases h
        exact .text true
          ((Html.isWhole_escape_unless _ ht).append (Html.isWhole_escape_unless _ hu))
  · cases hv with
    | list hvs =>
      cases hw with
      | list hws =>
        cases h
        exact .list (List.forall_mem_append.2 ⟨hvs, hws⟩)
  · cases hv with
    | text s ht =>
      cases hn : w.int? <;> rw [hn] at h
      · cases h
      · exact isWhole_repeatedText ht (n := some _) h
  · cases hv with
    | list hvs =>
      cases hn : w.int? <;> rw [hn] at h
      · cases h
      · exact isWhole_repeatedList hvs (n := some _) h
  · cases hw with
    | text s ht =>
      cases hn : v.int? <;> rw [hn] at h
      · cases h
      · exact isWhole_repeatedText ht (n := some _) h
  · cases hw with
    | list hws =>
      cases hn : v.int? <;> rw [hn] at h
      · cases h
      · exact isWhole_repeatedList hws (n := some _) h
  · cases h

theorem isWhole_negate (h : negate v = .ok w) : w.IsWhole := by
  rw [negate.eq_def] at h
  split at h <;> cases h
  · exact .int _
  · exact .float _

theorem isWhole_concat (hv : v.IsWhole) (hw : w.IsWhole) : (concat escaping v w).IsWhole := by
  unfold Scope.concat
  extract_lets isSafe shown
  have hshown : ∀ v : Value, v.IsWhole → (shown v).IsWhole := fun v hv =>
    Html.isWhole_escape_unless (isSafe v) hv.printed
  split_ifs
  · exact .text true ((hshown v hv).append (hshown w hw))
  · exact isWhole_plain (hv.printed.append hw.printed)

/-! ## Expressions -/

mutual

/-- An expression has a whole value. -/
theorem isWhole_eval (hs : s.IsWhole) (e : Expr) :
    e.isWhole = true → ∀ v, eval escaping s e = .ok v → v.IsWhole := by
  intro he v h
  cases e with
  | literal value =>
    cases h
    cases value with
    | text quote t => exact isWhole_plain (by simpa [Expr.isWhole, Text.IsWhole] using he)
    | none => exact .null
    | bool b => exact .bool b
    | int n => exact .int n
    | float x => exact .float x
  | list items =>
    obtain ⟨vs, hvs, h⟩ := exists_of_bind_eq_ok h
    cases h
    exact .list (isWhole_evalAll hs items he vs hvs)
  | mapping entries =>
    obtain ⟨vs, hvs, h⟩ := exists_of_bind_eq_ok h
    cases h
    have hentries := isWhole_evalEntries hs entries he vs hvs
    exact .mapping (fun p hp => (hentries p hp).1) fun p hp => (hentries p hp).2
  | ident name =>
    cases h
    exact hs.find name
  | item object index =>
    obtain ⟨hobject, -⟩ := Bool.and_eq_true_iff.1 he
    obtain ⟨x, hx, h⟩ := exists_of_bind_eq_ok h
    obtain ⟨i, -, h⟩ := exists_of_bind_eq_ok h
    exact (isWhole_eval hs object hobject x hx).element h
  | slice object start stop step =>
    simp only [Expr.isWhole, Bool.and_eq_true] at he
    obtain ⟨x, hx, h⟩ := exists_of_bind_eq_ok h
    obtain ⟨first, -, h⟩ := exists_of_bind_eq_ok h
    obtain ⟨last, -, h⟩ := exists_of_bind_eq_ok h
    obtain ⟨stride, -, h⟩ := exists_of_bind_eq_ok h
    exact (isWhole_eval hs object he.1.1.1 x hx).slice h
  | call function arguments named =>
    simp only [Expr.isWhole, Bool.and_eq_true] at he
    obtain ⟨⟨hfunction, harguments⟩, -⟩ := he
    cases function with
    | ident name =>
      obtain ⟨vs, hvs, h⟩ := exists_of_bind_eq_ok h
      have hwhole := isWhole_evalAll hs arguments harguments vs hvs
      cases hpart : lookup s.parts name with
      | some part =>
        simp only [hpart] at h
        obtain ⟨t, ht, h⟩ := exists_of_bind_eq_ok h
        cases h
        obtain ⟨p, hp, rfl⟩ := Option.map_eq_some_iff.1 hpart
        exact .text escaping
          (hs.parts p (List.mem_of_find?_eq_some hp) s.globals vs t hs.globals hwhole ht)
      | none =>
        simp only [hpart] at h
        split at h <;> cases h
    | _ =>
      obtain ⟨x, hx, h⟩ := exists_of_bind_eq_ok h
      -- Only a method can be called, and its object is part of the expression.
      first
      | split at h <;> cases h
      | obtain ⟨vs, -, h⟩ := exists_of_bind_eq_ok h
        exact (isWhole_eval hs _ (by exact hfunction) x hx).send h
  | filter object name arguments named =>
    simp only [Expr.isWhole, Bool.and_eq_true] at he
    obtain ⟨⟨hobject, harguments⟩, hnamed⟩ := he
    obtain ⟨x, hx, h⟩ := exists_of_bind_eq_ok h
    obtain ⟨vs, hvs, h⟩ := exists_of_bind_eq_ok h
    obtain ⟨ns, hns, h⟩ := exists_of_bind_eq_ok h
    exact Filter.isWhole_apply (isWhole_eval hs object hobject x hx)
      (isWhole_evalAll hs arguments harguments vs hvs) (isWhole_evalNamed hs named hnamed ns hns) h
  | test object name arguments =>
    obtain ⟨x, -, h⟩ := exists_of_bind_eq_ok h
    obtain ⟨b, -, h⟩ := exists_of_bind_eq_ok h
    cases h
    exact .bool b
  | operation operator left right =>
    obtain ⟨hleft, hright⟩ := Bool.and_eq_true_iff.1 he
    obtain ⟨x, hx, h⟩ := exists_of_bind_eq_ok h
    obtain ⟨y, hy, h⟩ := exists_of_bind_eq_ok h
    exact isWhole_operate (isWhole_eval hs left hleft x hx) (isWhole_eval hs right hright y hy) h
  | negative operand =>
    obtain ⟨x, -, h⟩ := exists_of_bind_eq_ok h
    exact isWhole_negate h
  | concat left right =>
    obtain ⟨hleft, hright⟩ := Bool.and_eq_true_iff.1 he
    obtain ⟨x, hx, h⟩ := exists_of_bind_eq_ok h
    obtain ⟨y, hy, h⟩ := exists_of_bind_eq_ok h
    cases h
    exact isWhole_concat (isWhole_eval hs left hleft x hx) (isWhole_eval hs right hright y hy)
  | compare comparison left right =>
    obtain ⟨x, -, h⟩ := exists_of_bind_eq_ok h
    obtain ⟨y, -, h⟩ := exists_of_bind_eq_ok h
    obtain ⟨b, -, h⟩ := exists_of_bind_eq_ok h
    cases h
    exact .bool b
  | and left right =>
    obtain ⟨hleft, hright⟩ := Bool.and_eq_true_iff.1 he
    obtain ⟨x, hx, h⟩ := exists_of_bind_eq_ok h
    split_ifs at h
    · exact isWhole_eval hs right hright v h
    · cases h
      exact isWhole_eval hs left hleft _ hx
  | or left right =>
    obtain ⟨hleft, hright⟩ := Bool.and_eq_true_iff.1 he
    obtain ⟨x, hx, h⟩ := exists_of_bind_eq_ok h
    split_ifs at h
    · cases h
      exact isWhole_eval hs left hleft _ hx
    · exact isWhole_eval hs right hright v h
  | not operand =>
    obtain ⟨x, -, h⟩ := exists_of_bind_eq_ok h
    cases h
    exact .bool _
  | choice condition yes no =>
    simp only [Expr.isWhole, Bool.and_eq_true] at he
    obtain ⟨x, -, h⟩ := exists_of_bind_eq_ok h
    split_ifs at h
    · exact isWhole_eval hs yes he.1.2 v h
    · exact isWhole_eval hs no he.2 v h
  | nothing line =>
    cases h
    exact .undefined _
  | _ =>
    -- What is left is a part of an object.
    obtain ⟨x, hx, h⟩ := exists_of_bind_eq_ok h
    exact (isWhole_eval hs _ (by exact he) x hx).field h

/-- Expressions have whole values. -/
theorem isWhole_evalAll (hs : s.IsWhole) (es : List Expr) :
    Expr.allWhole es = true → ∀ vs, evalAll escaping s es = .ok vs → ∀ v ∈ vs, v.IsWhole := by
  intro hes vs h
  cases es with
  | nil =>
    cases h
    exact List.forall_mem_nil _
  | cons e rest =>
    obtain ⟨he, hrest⟩ := Bool.and_eq_true_iff.1 hes
    obtain ⟨v, hv, h⟩ := exists_of_bind_eq_ok h
    obtain ⟨others, hothers, h⟩ := exists_of_bind_eq_ok h
    cases h
    exact List.forall_mem_cons.2
      ⟨isWhole_eval hs e he v hv, isWhole_evalAll hs rest hrest others hothers⟩

/-- The entries of a mapping have whole names and values. -/
theorem isWhole_evalEntries (hs : s.IsWhole) (entries : List (Expr × Expr)) :
    Expr.entriesWhole entries = true → ∀ vs, evalEntries escaping s entries = .ok vs →
      ∀ p ∈ vs, p.1.IsWhole ∧ p.2.IsWhole := by
  intro hentries vs h
  cases entries with
  | nil =>
    cases h
    exact List.forall_mem_nil _
  | cons entry rest =>
    obtain ⟨key, value⟩ := entry
    simp only [Expr.entriesWhole, Bool.and_eq_true] at hentries
    obtain ⟨⟨hkey, hvalue⟩, hrest⟩ := hentries
    obtain ⟨name, hname, h⟩ := exists_of_bind_eq_ok h
    have hnameWhole := isWhole_eval hs key hkey name hname
    cases hnameWhole with
    | text safe ht =>
      obtain ⟨v, hv, h⟩ := exists_of_bind_eq_ok h
      obtain ⟨others, hothers, h⟩ := exists_of_bind_eq_ok h
      cases h
      exact List.forall_mem_cons.2
        ⟨⟨ht, isWhole_eval hs value hvalue v hv⟩, isWhole_evalEntries hs rest hrest others hothers⟩
    | _ => cases h

/-- Arguments with names have whole values. -/
theorem isWhole_evalNamed (hs : s.IsWhole) (named : List (String × Expr)) :
    Expr.namedWhole named = true → ∀ vs, evalNamed escaping s named = .ok vs →
      ∀ p ∈ vs, p.2.IsWhole := by
  intro hnamed vs h
  cases named with
  | nil =>
    cases h
    exact List.forall_mem_nil _
  | cons argument rest =>
    obtain ⟨name, e⟩ := argument
    obtain ⟨he, hrest⟩ := Bool.and_eq_true_iff.1 hnamed
    obtain ⟨v, hv, h⟩ := exists_of_bind_eq_ok h
    obtain ⟨others, hothers, h⟩ := exists_of_bind_eq_ok h
    cases h
    exact List.forall_mem_cons.2
      ⟨isWhole_eval hs e he v hv, isWhole_evalNamed hs rest hrest others hothers⟩

end

theorem isWhole_evalOption (hs : s.IsWhole) {o : Option Expr} (ho : Expr.optionWhole o = true)
    {d : Option Value} (h : evalOption escaping s o = .ok d) : ∀ v ∈ d, v.IsWhole := by
  cases o with
  | none =>
    cases h
    rintro v ⟨⟩
  | some e =>
    obtain ⟨v, hv, h⟩ := exists_of_bind_eq_ok h
    cases h
    rintro _ ⟨⟩
    exact isWhole_eval hs e ho v hv

/-! ## Nodes -/

theorem isWhole_shown (h : v.IsWhole) : (shown escaping v).IsWhole := by
  rw [shown.eq_def]
  split
  · exact h.printed
  · split_ifs
    · exact Html.isWhole_escape h.printed
    · exact h.printed

theorem isWhole_rounds {round : Value → Value → Except Fault Text}
    (h : ∀ place v t, place.IsWhole → v.IsWhole → round place v = .ok t → t.IsWhole)
    {length index : Nat} {vs : List Value} (hvs : ∀ v ∈ vs, v.IsWhole) {t : Text}
    (ht : rounds round length index vs = .ok t) : t.IsWhole := by
  induction vs generalizing index t with
  | nil =>
    cases ht
    exact isWhole_nil
  | cons v rest ih =>
    obtain ⟨hv, hrest⟩ := List.forall_mem_cons.1 hvs
    obtain ⟨first, hfirst, ht⟩ := exists_of_bind_eq_ok ht
    obtain ⟨others, hothers, ht⟩ := exists_of_bind_eq_ok ht
    cases ht
    exact (h _ v first (.position index length) hv hfirst).append (ih hrest hothers)

theorem subset_of_selected {condition : Value → Except Fault Bool} {vs ws : List Value}
    (h : selected condition vs = .ok ws) : ws ⊆ vs := by
  induction vs generalizing ws with
  | nil =>
    cases h
    exact List.Subset.refl _
  | cons v rest ih =>
    obtain ⟨keep, -, h⟩ := exists_of_bind_eq_ok h
    obtain ⟨others, hothers, h⟩ := exists_of_bind_eq_ok h
    cases h
    split_ifs
    · exact List.cons_subset_cons v (ih hothers)
    · exact List.subset_cons_of_subset v (ih hothers)

theorem isWhole_parameterValues {defaults : List (String × Option Value)} {vs : List Value}
    (hdefaults : ∀ d ∈ defaults, ∀ v ∈ d.2, v.IsWhole) (hvs : ∀ v ∈ vs, v.IsWhole)
    {values : List (String × Value)} (h : parameterValues defaults vs = .ok values) :
    ∀ f ∈ values, f.2.IsWhole := by
  fun_induction parameterValues defaults vs generalizing values with
  | case1 =>
    cases h
    exact List.forall_mem_nil _
  | case2 => cases h
  | case3 name _ rest v vs ih =>
    obtain ⟨others, hothers, h⟩ := exists_of_bind_eq_ok h
    cases h
    obtain ⟨hv, hvs⟩ := List.forall_mem_cons.1 hvs
    exact List.forall_mem_cons.2 ⟨hv, ih (List.forall_mem_cons.1 hdefaults).2 hvs hothers⟩
  | case4 name v rest ih =>
    obtain ⟨others, hothers, h⟩ := exists_of_bind_eq_ok h
    cases h
    obtain ⟨hv, hrest⟩ := List.forall_mem_cons.1 hdefaults
    exact List.forall_mem_cons.2 ⟨hv v rfl, ih hrest hvs hothers⟩
  | case5 name rest ih =>
    obtain ⟨others, hothers, h⟩ := exists_of_bind_eq_ok h
    cases h
    exact List.forall_mem_cons.2
      ⟨.undefined _, ih (List.forall_mem_cons.1 hdefaults).2 hvs hothers⟩

mutual

/-- A node prints a whole text and leaves whole values. -/
theorem isWhole_run (node : Node) : node.isWhole = true → ∀ s : Scope, s.IsWhole → ∀ p,
    run escaping s node = .ok p → p.1.IsWhole ∧ p.2.IsWhole := by
  intro hnode s hs p h
  cases node with
  | text t =>
    cases h
    exact ⟨hs, Text.isWhole_ofString t⟩
  | output value =>
    obtain ⟨v, hv, h⟩ := exists_of_bind_eq_ok h
    cases h
    exact ⟨hs, isWhole_shown (isWhole_eval hs value hnode v hv)⟩
  | cond test yes no =>
    simp only [Node.isWhole, Bool.and_eq_true] at hnode
    obtain ⟨v, -, h⟩ := exists_of_bind_eq_ok h
    split_ifs at h
    · exact isWhole_runAll yes hnode.1.2 s hs p h
    · exact isWhole_runAll no hnode.2 s hs p h
  | loop target source condition body otherwise =>
    simp only [Node.isWhole, Bool.and_eq_true] at hnode
    obtain ⟨⟨⟨hsource, -⟩, hbody⟩, hotherwise⟩ := hnode
    rw [run] at h
    obtain ⟨v, hv, h⟩ := exists_of_bind_eq_ok h
    obtain ⟨all, hall, h⟩ := exists_of_bind_eq_ok h
    extract_lets inner round printed at h
    have hinner : inner.IsWhole := ⟨hs.locals, hs.globals, hs.parts⟩
    have hprinted : ∀ vs : List Value, (∀ v ∈ vs, v.IsWhole) → printed vs = .ok p →
        p.1.IsWhole ∧ p.2.IsWhole := by
      intro vs hvs h
      dsimp only [printed] at h
      split_ifs at h
      · obtain ⟨q, hq, h⟩ := exists_of_bind_eq_ok h
        cases h
        exact ⟨hs, (isWhole_runAll otherwise hotherwise inner hinner q hq).2⟩
      · obtain ⟨t, ht, h⟩ := exists_of_bind_eq_ok h
        cases h
        refine ⟨hs, isWhole_rounds (fun place v t hplace hv ht => ?_) hvs ht⟩
        obtain ⟨s', hs', ht⟩ := exists_of_bind_eq_ok ht
        obtain ⟨q, hq, ht⟩ := exists_of_bind_eq_ok ht
        cases ht
        exact (isWhole_runAll body hbody s' ((hinner.set "loop" hplace).bind hv hs') q hq).2
    have hwhole := (isWhole_eval hs source hsource v hv).elements hall
    cases condition with
    | none => exact hprinted all hwhole h
    | some e =>
      obtain ⟨vs, hvs, h⟩ := exists_of_bind_eq_ok h
      exact hprinted vs (fun v hv => hwhole v (subset_of_selected hvs hv)) h
  | set target value =>
    obtain ⟨v, hv, h⟩ := exists_of_bind_eq_ok h
    obtain ⟨s', hs', h⟩ := exists_of_bind_eq_ok h
    cases h
    exact ⟨hs.bind (isWhole_eval hs value hnode v hv) hs', isWhole_nil⟩
  | define name parameters body =>
    simp only [Node.isWhole, Bool.and_eq_true] at hnode
    obtain ⟨hparameters, hbody⟩ := hnode
    rw [run] at h
    obtain ⟨defaults, hdefaults, h⟩ := exists_of_bind_eq_ok h
    cases h
    refine ⟨⟨hs.locals, hs.globals, List.forall_mem_cons.2 ⟨?_, hs.parts⟩⟩, isWhole_nil⟩
    intro globals vs t hglobals hvs ht
    obtain ⟨locals, hlocals, ht⟩ := exists_of_bind_eq_ok ht
    obtain ⟨q, hq, ht⟩ := exists_of_bind_eq_ok ht
    cases ht
    have hwhole : ∀ d ∈ defaults, ∀ v ∈ d.2, v.IsWhole := by
      intro d hd
      obtain ⟨parameter, hparameter, hd⟩ := Traversal.exists_of_mem_mapM hdefaults d hd
      obtain ⟨o, ho, hd⟩ := exists_of_bind_eq_ok hd
      cases hd
      exact isWhole_evalOption hs (List.all_eq_true.1 hparameters parameter hparameter) ho
    exact (isWhole_runAll body hbody ⟨locals, globals, s.parts, true⟩
      ⟨isWhole_parameterValues hwhole hvs hlocals, hglobals, hs.parts⟩ q hq).2

/-- Nodes print a whole text and leave whole values. -/
theorem isWhole_runAll (nodes : List Node) : Node.allWhole nodes = true → ∀ s : Scope, s.IsWhole →
    ∀ p, runAll escaping s nodes = .ok p → p.1.IsWhole ∧ p.2.IsWhole := by
  intro hnodes s hs p h
  cases nodes with
  | nil =>
    cases h
    exact ⟨hs, isWhole_nil⟩
  | cons node rest =>
    obtain ⟨hnode, hrest⟩ := Bool.and_eq_true_iff.1 hnodes
    obtain ⟨q, hq, h⟩ := exists_of_bind_eq_ok h
    obtain ⟨q', hq', h⟩ := exists_of_bind_eq_ok h
    cases h
    obtain ⟨hs', ht⟩ := isWhole_run node hnode s hs q hq
    obtain ⟨hs'', hu⟩ := isWhole_runAll rest hrest q.1 hs' q' hq'
    exact ⟨hs'', ht.append hu⟩

end

end Scope

/-- A template whose texts are whole prints a whole text for whole values. -/
theorem Template.isWhole_render {template : Template} {escaping : Bool}
    {values : List (String × Value)} {t : Text} (h : Node.allWhole template.nodes = true)
    (hvalues : ∀ f ∈ values, f.2.IsWhole) (ht : template.render escaping values = .ok t) :
    t.IsWhole := by
  obtain ⟨p, hp, ht⟩ := Scope.exists_of_bind_eq_ok ht
  cases ht
  have hs : Scope.IsWhole { globals := values } :=
    ⟨List.forall_mem_nil _, hvalues, List.forall_mem_nil _⟩
  exact (Scope.isWhole_runAll template.nodes h _ hs p hp).2

end ContainerDocs

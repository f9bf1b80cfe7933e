import ContainerDocs.Proofs.Report.Data
import ContainerDocs.Proofs.Text.Whole

/-!
# Whole values

A value is whole if its texts are. What a value is printed as inside another one is always whole,
and the parts of a whole value are whole.

## Main definitions

* `Value.IsWhole` — the texts of a value are whole.

## Main statements

* `Value.isWhole_quoted`, `Value.IsWhole.printed` — the printed forms of values.
* `Value.IsWhole.field`, `Value.IsWhole.element`, `Value.IsWhole.slice`, `Value.IsWhole.elements`,
  `Value.IsWhole.send` — access to values.
-/

namespace ContainerDocs

open Text

/-! ## Cells -/

namespace Cell

variable {t u v : Text}

theorem isWhole_plain (h : t.IsWhole) : (plain t).IsWhole := by
  refine isWhole_flatMap fun c hc => ?_
  rw [escape]
  split_ifs
  · exact isWhole_ofString _
  · exact isWhole_ofString _
  · exact isWhole_ofString _
  · simpa using h c hc

theorem isWhole_code (h : t.IsWhole) : (code t).IsWhole := by
  unfold code
  extract_lets s
  split_ifs
  · exact isWhole_ofString _
  · exact ((isWhole_ofString _).append (isWhole_plain h)).append (isWhole_ofString _)

theorem isWhole_requiredMark (required noSymbols : Bool) :
    (requiredMark required noSymbols).IsWhole := by
  rw [requiredMark]
  split_ifs <;> exact isWhole_ofString _

theorem isWhole_entry (table : List (String × String)) (other : String) (t : Text) :
    (entry table other t).IsWhole := by
  unfold entry
  cases table.find? fun p => Text.ofString p.1 = t with
  | none => exact isWhole_ofString other
  | some p => exact isWhole_ofString p.2

theorem isWhole_severityMark (severity : Text) (noSymbols : Bool) :
    (severityMark severity noSymbols).IsWhole := by
  rw [severityMark]
  split_ifs
  · exact isWhole_ofString _
  · exact isWhole_entry _ _ _

theorem isWhole_badge (some : Bool) (h : t.IsWhole) (h' : u.IsWhole) (h'' : v.IsWhole) :
    (badge some t u v).IsWhole := by
  have hcolour : (if some then entry badgeColours "lightgrey" u
      else Text.ofString "brightgreen").IsWhole := by
    split_ifs
    · exact isWhole_entry _ _ _
    · exact isWhole_ofString _
  have hbase : Text.IsWhole (Blank.trimRight (· = ('/' : CodePoint)) v) :=
    h''.of_subset (trimRight_subset _ v)
  simp [badge, isWhole_ofString, h, h', hcolour, hbase]

end Cell

theorem Html.isWhole_escape {t : Text} (h : t.IsWhole) : (Html.escape t).IsWhole := by
  refine isWhole_flatMap fun c hc => ?_
  rw [escapeCode]
  split_ifs
  · exact isWhole_ofString _
  · exact isWhole_ofString _
  · exact isWhole_ofString _
  · exact isWhole_ofString _
  · exact isWhole_ofString _
  · simpa using h c hc

/-- A text is escaped unless it is markup already. -/
theorem Html.isWhole_escape_unless (safe : Bool) {t : Text} (h : t.IsWhole) :
    Text.IsWhole (if safe then t else Html.escape t) := by
  split_ifs
  · exact h
  · exact isWhole_escape h

/-! ## Values -/

def ImageStats.IsWhole (s : ImageStats) : Prop := ∀ t ∈ s.texts, t.IsWhole

theorem ImageStats.isWhole_iff {s : ImageStats} : s.IsWhole ↔
    (s.architecture.IsWhole ∧ s.os.IsWhole ∧ s.distribution.IsWhole) ∧
    (∀ t ∈ s.platforms, t.IsWhole) ∧
    (∀ p ∈ s.packages, p.name.IsWhole ∧ p.version.IsWhole) ∧
    (∀ v ∈ s.vulnerabilities, v.id.IsWhole ∧ v.severity.IsWhole ∧ v.package.IsWhole ∧
      v.version.IsWhole) ∧
    ∀ t ∈ s.severityCounts.keys, t.IsWhole := by
  simp only [IsWhole, texts, List.forall_mem_append, List.forall_mem_cons, List.forall_mem_flatMap,
    List.not_mem_nil, IsEmpty.forall_iff, implies_true, and_true, and_assoc]

namespace Value

inductive IsWhole : Value → Prop where
  | undefined (reason : String) : IsWhole (.undefined reason)
  | null : IsWhole .null
  | bool (b : Bool) : IsWhole (.bool b)
  | int (n : Int) : IsWhole (.int n)
  | float (x : Binary64) : IsWhole (.float x)
  | text (safe : Bool) {t : Text} (h : t.IsWhole) : IsWhole (.text safe t)
  | list {items : List Value} (h : ∀ v ∈ items, IsWhole v) : IsWhole (.list items)
  | mapping {entries : List (Text × Value)} (names : ∀ e ∈ entries, e.1.IsWhole)
      (values : ∀ e ∈ entries, IsWhole e.2) : IsWhole (.mapping entries)
  | item (i : Item) : IsWhole (.item i)
  | stats {s : ImageStats} (h : s.IsWhole) : IsWhole (.stats s)
  | package {p : Package} (name : p.name.IsWhole) (version : p.version.IsWhole) :
      IsWhole (.package p)
  | vulnerability {v : Vulnerability} (id : v.id.IsWhole) (severity : v.severity.IsWhole)
      (package : v.package.IsWhole) (version : v.version.IsWhole) : IsWhole (.vulnerability v)
  | options (o : ReportOptions) : IsWhole (.options o)
  | moment (t : Timestamp) : IsWhole (.moment t)
  | position (index length : Nat) : IsWhole (.position index length)
  | part (name : String) : IsWhole (.part name)

theorem isWhole_ofString (s : String) : IsWhole (.ofString s) :=
  .text false (Text.isWhole_ofString s)

theorem isWhole_plain {t : Text} (h : t.IsWhole) : IsWhole (.plain t) := .text false h

/-! ### Printed forms -/

theorem isWhole_bracketed (opening closing : String) {pieces : List Text}
    (h : ∀ t ∈ pieces, t.IsWhole) : (bracketed opening closing pieces).IsWhole :=
  ((Text.isWhole_ofString _).append (isWhole_join (Text.isWhole_ofString _) h)).append
    (Text.isWhole_ofString _)

theorem isWhole_named {pieces : List (String × Text)} (h : ∀ p ∈ pieces, p.2.IsWhole) :
    ∀ t ∈ named pieces, t.IsWhole := by
  intro t ht
  obtain ⟨p, hp, rfl⟩ := List.mem_map.1 ht
  exact ((Text.isWhole_ofString _).append (Text.isWhole_ofString _)).append (h p hp)

theorem isWhole_quotedText (t : Text) : (quotedText t).IsWhole := isWhole_ofChars _

theorem isWhole_boolText (b : Bool) : (boolText b).IsWhole := by
  rw [boolText]
  split_ifs <;> exact Text.isWhole_ofString _

theorem isWhole_itemPieces (i : Item) : ∀ t ∈ itemPieces i, t.IsWhole := by
  refine isWhole_named ?_
  simp [quotedString, isWhole_quotedText, isWhole_boolText, Text.isWhole_ofString]

theorem isWhole_packagePieces (p : Package) : ∀ t ∈ packagePieces p, t.IsWhole := by
  refine isWhole_named ?_
  simp [isWhole_quotedText]

theorem isWhole_vulnerabilityPieces (v : Vulnerability) :
    ∀ t ∈ vulnerabilityPieces v, t.IsWhole := by
  refine isWhole_named ?_
  simp [isWhole_quotedText]

theorem isWhole_optionPieces (o : ReportOptions) : ∀ t ∈ optionPieces o, t.IsWhole := by
  refine isWhole_named ?_
  simp [quotedString, isWhole_quotedText, isWhole_boolText]

theorem isWhole_differenceText (n : Int) : (differenceText n).IsWhole := by
  unfold differenceText
  extract_lets day days rest unit
  have hunit : ∀ name k, ∀ t ∈ unit name k, t.IsWhole := by
    intro name k
    dsimp only [unit]
    split_ifs
    · exact List.forall_mem_nil _
    · simp [Text.isWhole_ofString, isWhole_ofChars]
  refine ((Text.isWhole_ofString _).append (isWhole_join (Text.isWhole_ofString _) ?_)).append
    (Text.isWhole_ofString _)
  simp only [List.forall_mem_append]
  exact ⟨⟨hunit _ _, hunit _ _⟩, hunit _ _⟩

theorem isWhole_momentText (t : Timestamp) : (momentText t).IsWhole := by
  unfold momentText
  extract_lets number zone small
  have hnumber : ∀ n, (number n).IsWhole := fun n => isWhole_ofChars _
  have hzone : ∀ t ∈ zone, t.IsWhole := by
    dsimp only [zone]
    split
    · exact List.forall_mem_nil _
    · split_ifs
      · simp [Text.isWhole_ofString]
      · simp [Text.isWhole_ofString, isWhole_differenceText]
  have hsmall : ∀ t ∈ small, t.IsWhole := by
    dsimp only [small]
    split_ifs <;> simp [hnumber]
  refine ((Text.isWhole_ofString _).append (isWhole_join (Text.isWhole_ofString _) ?_)).append
    (Text.isWhole_ofString _)
  simp only [List.forall_mem_append]
  exact ⟨⟨by simp [hnumber], hsmall⟩, hzone⟩

theorem isWhole_statsPieces (s : ImageStats) : ∀ t ∈ statsPieces s, t.IsWhole := by
  have hlist : ∀ {α : Type} (opening closing : String) (as : List α) {f : α → Text},
      (∀ a, (f a).IsWhole) → (bracketed opening closing (as.map f)).IsWhole := by
    intro α opening closing as f hf
    refine isWhole_bracketed _ _ fun t ht => ?_
    obtain ⟨a, -, rfl⟩ := List.mem_map.1 ht
    exact hf a
  refine isWhole_named ?_
  simp only [List.forall_mem_cons, List.not_mem_nil, IsEmpty.forall_iff, implies_true, and_true]
  refine ⟨isWhole_quotedText _, isWhole_quotedText _, isWhole_quotedText _, isWhole_quotedText _,
    isWhole_ofChars _, isWhole_ofChars _, hlist _ _ _ isWhole_quotedText, Text.isWhole_ofString _,
    isWhole_ofChars _, isWhole_ofChars _, hlist _ _ _ fun p => ?_, hlist _ _ _ fun v => ?_,
    hlist _ _ _ fun c => ?_, ?scanned, hlist _ _ _ fun w => isWhole_quotedText _⟩
  · exact isWhole_bracketed _ _ (isWhole_packagePieces p)
  · exact isWhole_bracketed _ _ (isWhole_vulnerabilityPieces v)
  · exact ((isWhole_quotedText _).append (Text.isWhole_ofString _)).append (isWhole_ofChars _)
  case scanned =>
    cases s.scanned with
    | none => exact Text.isWhole_ofString _
    | some t => exact isWhole_momentText t

mutual

/-- Inside another value every value is printed whole. -/
theorem isWhole_quoted (v : Value) : v.quoted.IsWhole := by
  cases v with
  | undefined reason => exact Text.isWhole_ofString _
  | null => exact Text.isWhole_ofString _
  | bool b => exact isWhole_boolText b
  | int n => exact isWhole_ofChars _
  | float x => exact Text.isWhole_ofString _
  | text safe t =>
    cases safe with
    | false => exact isWhole_quotedText t
    | true =>
      exact ((Text.isWhole_ofString _).append (isWhole_quotedText t)).append
        (Text.isWhole_ofString _)
  | list items => exact isWhole_bracketed _ _ (isWhole_quotedItems items)
  | mapping entries => exact isWhole_bracketed _ _ (isWhole_quotedEntries entries)
  | item i => exact isWhole_bracketed _ _ (isWhole_itemPieces i)
  | stats s => exact isWhole_bracketed _ _ (isWhole_statsPieces s)
  | package p => exact isWhole_bracketed _ _ (isWhole_packagePieces p)
  | vulnerability v => exact isWhole_bracketed _ _ (isWhole_vulnerabilityPieces v)
  | options o => exact isWhole_bracketed _ _ (isWhole_optionPieces o)
  | moment t => exact isWhole_momentText t
  | position index length => simp [quoted, Text.isWhole_ofString, isWhole_ofChars]
  | part name => simp [quoted, Text.isWhole_ofString, quotedString, isWhole_quotedText]

theorem isWhole_quotedItems (items : List Value) : ∀ t ∈ quotedItems items, t.IsWhole := by
  cases items with
  | nil => exact List.forall_mem_nil _
  | cons v rest =>
    exact List.forall_mem_cons.2 ⟨isWhole_quoted v, isWhole_quotedItems rest⟩

theorem isWhole_quotedEntries (entries : List (Text × Value)) :
    ∀ t ∈ quotedEntries entries, t.IsWhole := by
  cases entries with
  | nil => exact List.forall_mem_nil _
  | cons e rest =>
    obtain ⟨name, v⟩ := e
    exact List.forall_mem_cons.2
      ⟨((isWhole_quotedText name).append (Text.isWhole_ofString _)).append (isWhole_quoted v),
        isWhole_quotedEntries rest⟩

end

theorem IsWhole.printed {v : Value} (h : v.IsWhole) : v.printed.IsWhole := by
  have hjoin : ∀ {pieces : List Text}, (∀ t ∈ pieces, t.IsWhole) →
      (Text.join " " pieces).IsWhole := isWhole_join (Text.isWhole_ofString _)
  cases h with
  | undefined reason => exact isWhole_nil
  | text safe ht => exact ht
  | item i => exact hjoin (isWhole_itemPieces i)
  | stats hs => exact hjoin (isWhole_statsPieces _)
  | package hn hv => exact hjoin (isWhole_packagePieces _)
  | vulnerability hi hs hp hv => exact hjoin (isWhole_vulnerabilityPieces _)
  | options o => exact hjoin (isWhole_optionPieces o)
  | moment t => exact isWhole_ofChars _
  | null => exact isWhole_quoted .null
  | bool b => exact isWhole_quoted (.bool b)
  | int n => exact isWhole_quoted (.int n)
  | float x => exact isWhole_quoted (.float x)
  | list h => exact isWhole_quoted _
  | mapping h h' => exact isWhole_quoted _
  | position i n => exact isWhole_quoted (.position i n)
  | part name => exact isWhole_quoted (.part name)

/-! ### Parts of values -/

variable {v w : Value}

theorem IsWhole.of_lookup {fields : List (String × Value)} {name : String}
    (h : ∀ f ∈ fields, f.2.IsWhole) (hv : lookup fields name = some v) : v.IsWhole := by
  obtain ⟨f, hf, rfl⟩ := Option.map_eq_some_iff.1 hv
  exact h f (List.mem_of_find?_eq_some hf)

theorem isWhole_texts {ts : List Text} (h : ∀ t ∈ ts, t.IsWhole) : IsWhole (.texts ts) := by
  refine .list fun v hv => ?_
  obtain ⟨t, ht, rfl⟩ := List.mem_map.1 hv
  exact isWhole_plain (h t ht)

theorem isWhole_list_map {α : Type} {as : List α} {f : α → Value} (h : ∀ a ∈ as, (f a).IsWhole) :
    IsWhole (.list (as.map f)) := by
  refine .list fun v hv => ?_
  obtain ⟨a, ha, rfl⟩ := List.mem_map.1 hv
  exact h a ha

theorem isWhole_statsFields {s : ImageStats} (h : s.IsWhole) :
    ∀ f ∈ statsFields s, f.2.IsWhole := by
  obtain ⟨⟨harchitecture, hos, hdistribution⟩, hplatforms, hpackages, hvulnerabilities, hcounts⟩ :=
    ImageStats.isWhole_iff.1 h
  simp only [statsFields, List.forall_mem_cons, List.not_mem_nil, IsEmpty.forall_iff, implies_true,
    and_true]
  refine ⟨isWhole_ofString _, isWhole_plain harchitecture, isWhole_plain hos,
    isWhole_plain hdistribution, .int _, .int _, isWhole_texts hplatforms, .float _, .int _, .int _,
    ?packages, ?vulnerabilities, .mapping ?names ?counts, ?scanned, ?warnings⟩
  case packages => exact isWhole_list_map fun p hp => .package (hpackages p hp).1 (hpackages p hp).2
  case vulnerabilities =>
    refine isWhole_list_map fun v hv => ?_
    obtain ⟨hid, hseverity, hpackage, hversion⟩ := hvulnerabilities v hv
    exact .vulnerability hid hseverity hpackage hversion
  case names =>
    intro e he
    obtain ⟨c, hc, rfl⟩ := List.mem_map.1 he
    exact hcounts c.1 (List.mem_map_of_mem hc)
  case counts =>
    intro e he
    obtain ⟨c, -, rfl⟩ := List.mem_map.1 he
    exact .int c.2
  case scanned =>
    cases s.scanned with
    | none => exact .null
    | some t => exact .moment t
  case warnings => exact isWhole_list_map fun w _ => isWhole_ofString w

theorem IsWhole.attribute? (h : v.IsWhole) {name : String} (hw : v.attribute? name = .ok (some w)) :
    w.IsWhole := by
  cases h with
  | item i =>
    refine .of_lookup ?_ (Except.ok.inj hw)
    simp [itemFields, isWhole_ofString, IsWhole.bool]
  | @stats s h =>
    rw [Value.attribute?] at hw
    split_ifs at hw
    · cases hsize : s.sizeText <;> rw [hsize] at hw <;> cases hw
      exact isWhole_ofString _
    · cases hwasted : s.wastedText <;> rw [hwasted] at hw <;> cases hw
      exact isWhole_ofString _
    · cases hw
      exact .int _
    · exact .of_lookup (isWhole_statsFields h) (Except.ok.inj hw)
  | package hname hversion =>
    refine .of_lookup ?_ (Except.ok.inj hw)
    simp [packageFields, isWhole_plain hname, isWhole_plain hversion]
  | vulnerability hid hseverity hpackage hversion =>
    refine .of_lookup ?_ (Except.ok.inj hw)
    simp [vulnerabilityFields, isWhole_plain hid, isWhole_plain hseverity, isWhole_plain hpackage,
      isWhole_plain hversion]
  | options o =>
    refine .of_lookup ?_ (Except.ok.inj hw)
    simp [optionFields, isWhole_ofString, IsWhole.bool]
  | moment t =>
    refine .of_lookup ?_ (Except.ok.inj hw)
    simp [momentFields, IsWhole.int]
  | position index length =>
    refine .of_lookup ?_ (Except.ok.inj hw)
    simp [positionFields, IsWhole.int, IsWhole.bool]
  | mapping hnames hvalues =>
    obtain ⟨e, he, rfl⟩ := Option.map_eq_some_iff.1 (Except.ok.inj hw)
    exact hvalues e (List.mem_of_find?_eq_some he)
  | _ => cases hw

theorem IsWhole.field (h : v.IsWhole) {name : String} (hw : v.field name = .ok w) :
    w.IsWhole := by
  rw [Value.field.eq_def] at hw
  split at hw
  · cases hw
  · split at hw
    next hattribute =>
      cases hw
      exact h.attribute? hattribute
    next =>
      cases hw
      exact .undefined _
    next => cases hw

theorem IsWhole.getElem? {items : List Value} (h : ∀ v ∈ items, v.IsWhole) (hv : v.IsWhole)
    (i : Option Nat) : (((i.bind (items[·]?)).getD v)).IsWhole := by
  cases hi : i.bind (items[·]?) with
  | none => exact hv
  | some x =>
    obtain ⟨n, -, hn⟩ := Option.bind_eq_some_iff.1 hi
    exact h x (List.mem_of_getElem? hn)

theorem IsWhole.element (h : v.IsWhole) {index : Value} (hw : v.element index = .ok w) :
    w.IsWhole := by
  rw [Value.element.eq_def] at hw
  split at hw
  · cases hw
  next items i =>
    cases h with
    | list hitems =>
      split at hw <;> cases hw
      · exact .getElem? hitems (.undefined _) _
      · exact .undefined _
      · exact .undefined _
  next safe t =>
    cases h with
    | text _ ht =>
      split at hw <;> cases hw
      next n _ =>
        cases hn : (place? t.length n).bind (t[·]?) with
        | none => exact .undefined _
        | some c =>
          obtain ⟨k, -, hk⟩ := Option.bind_eq_some_iff.1 hn
          exact .text safe (by simpa using ht c (List.mem_of_getElem? hk))
      · exact .undefined _
      · exact .undefined _
  · exact h.field hw
  · cases hw
    exact .undefined _

theorem sliceList_subset {α : Type} (as : List α) (start stop : Option Int) (step : Int) :
    sliceList as start stop step ⊆ as := by
  intro a ha
  obtain ⟨i, -, hi⟩ := List.mem_filterMap.1 ha
  exact List.mem_of_getElem? hi

theorem IsWhole.slice (h : v.IsWhole) {start stop step : Option Value}
    (hw : v.slice start stop step = .ok w) : w.IsWhole := by
  obtain ⟨first, -, hw⟩ := Scope.exists_of_bind_eq_ok hw
  obtain ⟨last, -, hw⟩ := Scope.exists_of_bind_eq_ok hw
  obtain ⟨stride, -, hw⟩ := Scope.exists_of_bind_eq_ok hw
  extract_lets distance rest at hw
  by_cases hzero : distance = 0
  · rw [if_pos hzero] at hw
    cases hw
  · rw [if_neg hzero] at hw
    cases h with
    | undefined reason => cases hw
    | list hitems =>
      cases hw
      exact .list fun v hv => hitems v (sliceList_subset _ _ _ _ hv)
    | text safe ht =>
      cases hw
      exact .text safe (ht.of_subset (sliceList_subset _ _ _ _))
    | _ =>
      cases hw
      exact .undefined _

theorem IsWhole.elements (h : v.IsWhole) {vs : List Value} (hvs : v.elements = .ok vs) :
    ∀ v ∈ vs, v.IsWhole := by
  cases h with
  | undefined reason =>
    cases hvs
    exact List.forall_mem_nil _
  | list hitems =>
    cases hvs
    exact hitems
  | text safe ht =>
    cases hvs
    intro v hv
    obtain ⟨c, hc, rfl⟩ := List.mem_map.1 hv
    exact .text safe (by simpa using ht c hc)
  | mapping hnames hvalues =>
    cases hvs
    intro v hv
    obtain ⟨e, he, rfl⟩ := List.mem_map.1 hv
    exact isWhole_plain (hnames e he)
  | _ => cases hvs

theorem IsWhole.send (h : v.IsWhole) {method : String} {arguments : List Value}
    (hw : v.send method arguments = .ok w) : w.IsWhole := by
  rw [Value.send.eq_def] at hw
  split at hw
  · cases hw
  · cases hw
    exact .int _
  · cases hw
    exact .int _
  · split_ifs at hw
    cases hw
    exact isWhole_plain (isWhole_ofChars _)
  · split at hw <;> cases hw

/-! ### Documents -/

theorem isWhole_ofJson_array {items : List Json} (h : ∀ v ∈ items, (ofJson v).IsWhole) :
    (ofJson (.array items)).IsWhole := by
  refine .list ?_
  induction items with
  | nil => exact List.forall_mem_nil _
  | cons v rest ih =>
    obtain ⟨hv, hrest⟩ := List.forall_mem_cons.1 h
    exact List.forall_mem_cons.2 ⟨hv, ih hrest⟩

theorem isWhole_ofJson_object {fields : List (Text × Json)}
    (h : ∀ f ∈ fields, f.1.IsWhole ∧ (ofJson f.2).IsWhole) :
    (ofJson (.object fields)).IsWhole := by
  have hentries : ∀ e ∈ ofJsonFields fields, e.1.IsWhole ∧ e.2.IsWhole := by
    induction fields with
    | nil => exact List.forall_mem_nil _
    | cons f rest ih =>
      obtain ⟨hf, hrest⟩ := List.forall_mem_cons.1 h
      exact List.forall_mem_cons.2 ⟨hf, ih hrest⟩
  exact .mapping (fun e he => (hentries e he).1) fun e he => (hentries e he).2

end Value

end ContainerDocs

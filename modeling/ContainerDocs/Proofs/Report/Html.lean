import ContainerDocs.Proofs.Report.Markup
import ContainerDocs.Proofs.Report.Render

/-!
# Pages that show data

No data adds markup to a page: two reports of the same shape have the same marks.

## Main definitions

* `Item.SameShape`, `ImageStats.SameShape` — data for which a page takes the same branches.

## Main statements

* `Html.pages_alike` — the pages of data of the same shape have the same marks.
-/

namespace ContainerDocs

/-- Items whose values are both empty or both not. -/
def Item.SameShape (i j : Item) : Prop := i.value.isEmpty = j.value.isEmpty

instance (i j : Item) : Decidable (i.SameShape j) :=
  inferInstanceAs (Decidable (i.value.isEmpty = j.value.isEmpty))

/-- Statistics with the same parts empty, and lists that are shown of the same length. -/
structure ImageStats.SameShape (a b : ImageStats) : Prop where
  platforms : a.platforms.isEmpty = b.platforms.isEmpty
  distribution : a.distribution.isEmpty = b.distribution.isEmpty
  vulnerabilities : a.vulnerabilities.length = b.vulnerabilities.length
  warnings : a.warnings.length = b.warnings.length

namespace Html

open Parts Scope Segment

variable {R : Scope → Scope → Prop} {S : Value → Value → Prop} {s s' : Scope} {name : String}

/-! ## Values -/

theorem escapes_plain {e : Expr} {t : Text} (h : eval true s e = .ok (.plain t)) : Escapes s e :=
  ⟨_, h, trivial⟩

theorem escapes_orHyphen {e : Expr} {t : Text} (h : eval true s e = .ok (.plain t)) :
    Escapes s (orHyphen e) :=
  escapes_plain (eval_orHyphen h)

def Texts (v v' : Value) : Prop := ∃ t t', v = .plain t ∧ v' = .plain t'

def Items (v v' : Value) : Prop := ∃ i j : Item, v = .item i ∧ v' = .item j ∧ i.SameShape j

def Stats (v v' : Value) : Prop :=
  ∃ a b : ImageStats, v = .stats a ∧ v' = .stats b ∧ a.SameShape b ∧ a.HasSizes ∧ b.HasSizes

def Vulnerabilities (v v' : Value) : Prop :=
  ∃ a b : Vulnerability, v = .vulnerability a ∧ v' = .vulnerability b

/-- Lists of the same length have related elements, if any two elements are related. -/
theorem forall₂_map {α : Type} {f : α → Value} (hf : ∀ a b, S (f a) (f b)) {as bs : List α}
    (h : as.length = bs.length) : List.Forall₂ S (as.map f) (bs.map f) := by
  rw [List.forall₂_iff_get]
  refine ⟨by simpa using h, fun i hi hi' => ?_⟩
  simpa using hf _ _

/-! ## The items of a page -/

theorem escapes_item {e : Expr} (he : ∀ s i, s.find "item" = .item i → Escapes s e) (s s' : Scope)
    (h : InRound R "item" Items s s') : Escapes s e ∧ Escapes s' e := by
  obtain ⟨i, j, hi, hj, -⟩ := h.sees
  exact ⟨he s i hi, he s' j hj⟩

/-- A text field of an item. -/
theorem escapes_itemField (field : String)
    (hfield : ∀ i : Item, ∃ t, (Value.item i).field field = .ok (.plain t)) (s s' : Scope)
    (h : InRound R "item" Items s s') :
    Escapes s (Parts.field "item" field) ∧ Escapes s' (Parts.field "item" field) :=
  escapes_item (fun _ i hi => escapes_plain (eval_field hi (hfield i).choose_spec)) s s' h

theorem escapes_required {i : Item} (h : s.find "item" = .item i) :
    Escapes s (.choice (field "item" "required") (.quoted "Yes") (.quoted "No")) := by
  have hrequired : eval true s (field "item" "required") = .ok (.bool i.required) :=
    eval_field h rfl
  have hchoice : eval true s (.choice (field "item" "required") (.quoted "Yes") (.quoted "No")) =
      .ok (.ofString (if i.required then "Yes" else "No")) := by
    rw [eval, hrequired, ok_bind]
    cases i.required <;> rfl
  exact escapes_plain hchoice

theorem tests_itemValue :
    Tests (InRound R "item" Items) (InRound R "item" Items) (field "item" "value") := by
  intro s s' h
  obtain ⟨i, j, hi, hj, hshape⟩ := h.sees
  refine ⟨_, _, eval_field hi rfl, eval_field hj rfl, ?_, fun _ => h⟩
  have hvalue : ∀ t : String, (Value.ofString t).isTrue = !t.isEmpty := by
    intro t
    rw [Bool.eq_iff_iff]
    simp [Value.ofString, Value.isTrue, Text.ofString, Text.ofChars]
  rw [hvalue, hvalue, hshape]

theorem alike_items (hR : ∀ s s', R s s' → Sees (ListOf Items) "items" s s') : Alike R items := by
  have hitems := lists_ident hR
  refine .cutChoice hitems.tests (.append (.append (.text .nil)
    (.cutLoop hitems (.append (.append ?_ (.plainCond tests_itemValue ?_)) ?_)))
    (.text .nil)) (.text .nil)
  · exact .text (.out (escapes_itemField "name" fun i => ⟨_, rfl⟩) (.text
      (.out (escapes_itemField "type" fun i => ⟨_, rfl⟩) (.text
      (.out (escapes_itemField "description" fun i => ⟨_, rfl⟩) (.text .nil))))))
  · exact .text (.out (escapes_itemField "value" fun i => ⟨_, rfl⟩) (.text .nil))
  · exact .text (.out (escapes_item fun s i hi => escapes_required hi) (.text .nil))

/-! ## The analysis of a page -/

/-- Two scopes with statistics of the same shape, whose sizes can be printed. -/
structure SeesStats (s s' : Scope) : Prop where
  stats : Sees Stats "stats" s s'
  severities : Sees (ListOf Texts) "severities" s s'

theorem escapes_stats {e : Expr} (he : ∀ s a, s.find "stats" = .stats a → a.HasSizes → Escapes s e)
    (s s' : Scope) (h : SeesStats s s') : Escapes s e ∧ Escapes s' e := by
  obtain ⟨a, b, ha, hb, -, hsizes, hsizes'⟩ := h.stats
  exact ⟨he s a ha hsizes, he s' b hb hsizes'⟩

/-- A field of statistics. -/
theorem escapes_field {field : String}
    (hfield : ∀ a : ImageStats, a.HasSizes → ∃ v, (Value.stats a).field field = .ok v ∧ IsData v)
    (s s' : Scope) (h : SeesStats s s') :
    Escapes s (Parts.field "stats" field) ∧ Escapes s' (Parts.field "stats" field) := by
  refine escapes_stats (fun s a ha hsizes => ?_) s s' h
  obtain ⟨v, hv, hdata⟩ := hfield a hsizes
  exact ⟨v, eval_field ha hv, hdata⟩

theorem field_size {a : ImageStats} (h : ∃ t, a.sizeText = .ok t) :
    ∃ v, (Value.stats a).field "size_mb" = .ok v ∧ IsData v := by
  obtain ⟨t, ht⟩ := h
  refine ⟨.ofString t, ?_, trivial⟩
  simp [Value.field, Value.attribute?, ht, Except.map]

theorem field_wasted {a : ImageStats} (h : a.HasSizes) :
    ∃ v, (Value.stats a).field "wasted_mb" = .ok v ∧ IsData v := by
  obtain ⟨t, ht⟩ := h.wasted
  refine ⟨.ofString t, ?_, trivial⟩
  simp [Value.field, Value.attribute?, ht, Except.map]

theorem escapes_platforms {a : ImageStats} (h : s.find "stats" = .stats a) :
    Escapes s ((field "stats" "supported_architectures").pipe "join" [.quoted ", "]) := by
  have hjoin : Filter.apply true "join" (.texts a.platforms) [.ofString ", "] [] =
      .ok (Filter.join true (some (.ofString ", ")) (a.platforms.map .plain)) := rfl
  have hdata : ∃ t, Filter.join true (some (.ofString ", ")) (a.platforms.map .plain) =
      .plain t := by
    refine ⟨_, if_neg ?_⟩
    simp [Value.plain, Value.ofString]
  obtain ⟨t, ht⟩ := hdata
  exact escapes_plain (eval_pipe_args (eval_field h rfl) rfl (hjoin.trans (congrArg _ ht)))

/-- A list of the statistics whose length belongs to their shape. -/
theorem lists_stats {α : Type} {field : String} {f : α → Value} (list : ImageStats → List α)
    (hfield : ∀ a, (Value.stats a).field field = .ok (.list ((list a).map f)))
    (hlength : ∀ a b : ImageStats, a.SameShape b → (list a).length = (list b).length)
    (hf : ∀ x y, S (f x) (f y)) : Lists SeesStats S (Parts.field "stats" field) := by
  intro s s' h
  obtain ⟨a, b, ha, hb, hshape, -⟩ := h.stats
  exact ⟨_, _, eval_field ha (hfield a), eval_field hb (hfield b), _, _, rfl, rfl,
    forall₂_map hf (hlength a b hshape)⟩

theorem lists_vulnerabilities :
    Lists SeesStats Vulnerabilities (field "stats" "vulnerabilities") :=
  lists_stats (·.vulnerabilities) (fun _ => rfl) (fun _ _ h => h.vulnerabilities)
    fun v w => ⟨v, w, rfl, rfl⟩

theorem lists_warnings : Lists SeesStats Texts (field "stats" "warnings") :=
  lists_stats (·.warnings) (fun _ => rfl) (fun _ _ h => h.warnings) fun _ _ => ⟨_, _, rfl, rfl⟩

/-- A field whose emptiness belongs to the shape of statistics. -/
theorem tests_stats {field : String}
    (hfield : ∀ a b : ImageStats, a.SameShape b → ∃ v w, (Value.stats a).field field = .ok v ∧
      (Value.stats b).field field = .ok w ∧ v.isTrue = w.isTrue) :
    Tests SeesStats SeesStats (Parts.field "stats" field) := by
  intro s s' h
  obtain ⟨a, b, ha, hb, hshape, -⟩ := h.stats
  obtain ⟨v, w, hv, hw, htruth⟩ := hfield a b hshape
  exact ⟨v, w, eval_field ha hv, eval_field hb hw, htruth, fun _ => h⟩

theorem tests_platforms :
    Tests SeesStats SeesStats (field "stats" "supported_architectures") :=
  tests_stats fun a b h => ⟨_, _, rfl, rfl, by simpa [Value.texts, Value.isTrue] using h.platforms⟩

theorem tests_distribution : Tests SeesStats SeesStats (field "stats" "os_distro") :=
  tests_stats fun a b h => ⟨_, _, rfl, rfl, by
    simpa [Value.plain, Value.isTrue] using h.distribution⟩

/-- A line of a table around a printed part. -/
theorem alike_line (heading : String) {value : List Segment} (h : Alike R value) :
    Alike R (line heading value) :=
  .append (.text h) (.text .nil)

theorem alike_metrics : Alike SeesStats metrics := by
  refine .append (.append (.append (.append (.append (.append (.append (.append (.append (.append
    (.text .nil) ?size) ?architecture) ?platforms) (.text .nil)) ?distribution) (.text .nil))
    ?efficiency) ?layers) ?packages) (.text .nil)
  case size => exact alike_line _ (.out (escapes_field fun _ h => field_size h.size) .nil)
  case architecture =>
    exact alike_line _ (.out (escapes_stats fun s a ha _ => escapes_orHyphen (eval_field ha rfl))
      (.text (.out (escapes_stats fun s a ha _ => escapes_orHyphen (eval_field ha rfl)) .nil)))
  case platforms =>
    exact .cutCond tests_platforms (.text (alike_line _
      (.out (escapes_stats fun s a ha _ => escapes_platforms ha) .nil)))
  case distribution =>
    exact .cutCond tests_distribution (.text (alike_line _
      (.out (escapes_field fun _ _ => ⟨_, rfl, trivial⟩) .nil)))
  case efficiency =>
    exact alike_line _ (.out (escapes_stats fun s a ha _ =>
      escapes_plain (eval_oneDigit (eval_field ha rfl)))
      (.text (.out (escapes_field fun _ => field_wasted) (.text .nil))))
  case layers => exact alike_line _ (.out (escapes_field fun _ _ => ⟨_, rfl, trivial⟩) .nil)
  case packages => exact alike_line _ (.out (escapes_field fun _ _ => ⟨_, rfl, trivial⟩) .nil)

/-! ### Severities, vulnerabilities and warnings -/

/-- The statistics are seen in the rounds of a loop, too. -/
theorem SeesStats.of_round (h : InRound SeesStats name S s s') (hstats : "stats" ≠ name)
    (hseverities : "severities" ≠ name) : SeesStats s s' :=
  ⟨.of_round (fun _ _ hs => hs.stats) hstats (by decide) s s' h,
    .of_round (fun _ _ hs => hs.severities) hseverities (by decide) s s' h⟩

theorem escapes_severity (s s' : Scope) (h : InRound R "severity" Texts s s') :
    Escapes s (.ident "severity") ∧ Escapes s' (.ident "severity") := by
  obtain ⟨t, t', ht, ht'⟩ := h.sees
  exact ⟨escapes_plain (congrArg _ ht), escapes_plain (congrArg _ ht')⟩

/-- The number of vulnerabilities of a severity. -/
theorem escapes_count {e : Expr} {a : ImageStats} {t : Text} (h : eval true s e = .ok (.stats a))
    (hseverity : s.find "severity" = .plain t) :
    Escapes s (e.send "vuln_count" [.ident "severity"]) :=
  ⟨_, eval_send h (evalAll_singleton (congrArg _ hseverity)) rfl, trivial⟩

theorem tests_last (h : name ≠ "loop") :
    Tests (InRound R name S) (InRound R name S) (.not (field "loop" "last")) := by
  intro s s' hround
  obtain ⟨index, length, hs, hv⟩ := id hround
  have hlast : ∀ s v, eval true (Scope.round s name (.position index length) v)
      (.not (field "loop" "last")) = .ok (.bool !(index + 1 == length)) := by
    intro s v
    rw [eval, eval_field (find_round_loop s _ v h) rfl]
    rfl
  exact ⟨_, _, hlast _ _, hlast _ _, rfl, fun _ => hround⟩

theorem alike_securitySummary : Alike SeesStats securitySummary := by
  refine .append (.append (.text .nil) (.cutLoop (lists_ident fun _ _ h => h.severities)
    (.append (.append ?_ ?_) (.text .nil)))) (.text .nil)
  · refine .text (.out escapes_severity (.text (.out escapes_severity (.text
      (.out ?_ (.text .nil))))))
    intro s s' h
    obtain ⟨t, t', ht, ht'⟩ := h.sees
    obtain ⟨a, b, ha, hb, -⟩ := (SeesStats.of_round h (by decide) (by decide)).stats
    exact ⟨escapes_count (congrArg _ ha) ht, escapes_count (congrArg _ hb) ht'⟩
  · exact .plainCond (tests_last (by decide)) (.text .nil)

theorem escapes_vulnerability (field : String)
    (hfield : ∀ v : Vulnerability, ∃ t, (Value.vulnerability v).field field = .ok (.plain t))
    (s s' : Scope) (h : InRound R "vuln" Vulnerabilities s s') :
    Escapes s (Parts.field "vuln" field) ∧ Escapes s' (Parts.field "vuln" field) := by
  obtain ⟨v, w, hv, hw⟩ := h.sees
  exact ⟨escapes_plain (eval_field hv (hfield v).choose_spec),
    escapes_plain (eval_field hw (hfield w).choose_spec)⟩

theorem alike_vulnerabilities : Alike SeesStats vulnerabilities := by
  refine .cutCond lists_vulnerabilities.tests (.append (.append (.text .nil)
    (.cutLoop lists_vulnerabilities ?_)) (.text .nil))
  exact .text (.out (escapes_vulnerability "id" fun v => ⟨_, rfl⟩) (.text
    (.out (escapes_vulnerability "severity" fun v => ⟨_, rfl⟩) (.text
    (.out (escapes_vulnerability "severity" fun v => ⟨_, rfl⟩) (.text
    (.out (escapes_vulnerability "package" fun v => ⟨_, rfl⟩) (.text
    (.out (escapes_vulnerability "version" fun v => ⟨_, rfl⟩) (.text .nil))))))))))

theorem alike_warnings : Alike SeesStats warnings := by
  refine .cutCond lists_warnings.tests (.append (.append (.text .nil) (.cutLoop lists_warnings
    (.text (.out ?_ (.text .nil))))) (.text .nil))
  intro s s' h
  obtain ⟨t, t', ht, ht'⟩ := h.sees
  exact ⟨escapes_plain (congrArg _ ht), escapes_plain (congrArg _ ht')⟩

/-! ## The page of an image -/

/-- Two scopes in which the page of an image is printed. -/
structure SeesImage (s s' : Scope) : Prop where
  title : Sees Texts "title" s s'
  items : Sees (ListOf Items) "items" s s'
  stats : s.find "stats" = .null ∧ s'.find "stats" = .null ∨ SeesStats s s'

theorem tests_image : Tests SeesImage SeesStats (.ident "stats") := by
  intro s s' h
  obtain ⟨hs, hs'⟩ | hstats := h.stats
  · exact ⟨_, _, congrArg _ hs, congrArg _ hs', rfl, fun htrue => by cases htrue⟩
  · obtain ⟨a, b, ha, hb, -⟩ := hstats.stats
    exact ⟨_, _, congrArg _ ha, congrArg _ hb, rfl, fun _ => hstats⟩

/-- The head of a page shows its title. -/
theorem alike_head (hR : ∀ s s', R s s' → Sees Texts "title" s s') :
    Alike R head := by
  refine .text (.out (fun s s' hs => ?_) (.text .nil))
  obtain ⟨t, t', ht, ht'⟩ := hR s s' hs
  exact ⟨escapes_plain (congrArg _ ht), escapes_plain (congrArg _ ht')⟩

theorem alike_image : ∃ page, image = title "Docker Image Documentation" :: page ∧
    Alike SeesImage page := by
  refine ⟨_, rfl, .append (.append (.append (.append (.append
    (alike_head fun _ _ h => h.title) (.text .nil)) (alike_items fun _ _ h => h.items))
    (.text .nil)) (.cutCond tests_image ?_)) (.text .nil)⟩
  refine .append (.append (.append (.append (.append (.append ?_ alike_metrics)
    alike_securitySummary) alike_vulnerabilities) (.text .nil)) alike_warnings) (.text .nil)
  exact .text (.out (escapes_field fun _ _ => ⟨_, rfl, trivial⟩) (.text .nil))

/-! ## The page of a comparison -/

/-- An image with a name, as a comparison goes through them. -/
def namedImage (p : String × ImageStats) : Value :=
  .mapping [(Text.ofString "name", .ofString p.1), (Text.ofString "stats", .stats p.2)]

def Images (v v' : Value) : Prop :=
  ∃ p q, v = namedImage p ∧ v' = namedImage q ∧ (∃ t, p.2.sizeText = .ok t) ∧
    ∃ t, q.2.sizeText = .ok t

/-- Two scopes in which the page of a comparison is printed. -/
structure SeesImages (s s' : Scope) : Prop where
  title : Sees Texts "title" s s'
  images : Sees (ListOf Images) "images" s s'
  severities : Sees (ListOf Texts) "severities" s s'

theorem escapes_image {e : Expr} (he : ∀ s p, s.find "image" = namedImage p →
      (∃ t, p.2.sizeText = .ok t) → Escapes s e) (s s' : Scope)
    (h : InRound R "image" Images s s') : Escapes s e ∧ Escapes s' e := by
  obtain ⟨p, q, hp, hq, hsize, hsize'⟩ := h.sees
  exact ⟨he s p hp hsize, he s' q hq hsize'⟩

theorem eval_imageStats {p : String × ImageStats} (h : s.find "image" = namedImage p) :
    eval true s (field "image" "stats") = .ok (.stats p.2) :=
  eval_field h rfl

/-- A field of the statistics of an image. -/
theorem escapes_imageField {field : String}
    (hfield : ∀ a : ImageStats, (∃ t, a.sizeText = .ok t) →
      ∃ v, (Value.stats a).field field = .ok v ∧ IsData v) (s s' : Scope)
    (h : InRound R "image" Images s s') :
    Escapes s (imageField field) ∧ Escapes s' (imageField field) := by
  refine escapes_image (fun s p hp hsize => ?_) s s' h
  obtain ⟨v, hv, hdata⟩ := hfield p.2 hsize
  exact ⟨v, eval_attribute (eval_imageStats hp) hv, hdata⟩

/-- A line of a table with a printed part for each image. -/
theorem alike_imageLine (heading : String) {value : List Segment}
    (h : Alike (InRound SeesImages "image" Images) value) :
    Alike SeesImages (imageLine heading value) :=
  .append (.text (.plainLoop (lists_ident fun _ _ hs => hs.images)
    (.append (.text h) (.text .nil)))) (.text .nil)

theorem alike_comparison : ∃ page, comparison = title "Docker Image Comparison" :: page ∧
    Alike SeesImages page := by
  refine ⟨_, rfl, .append (.append (.append (.append (.append (.append (.append (.append (.append
    (.append (alike_head fun _ _ h => h.title) (.text .nil)) ?names) (.text .nil)) ?size)
    ?architecture) ?layers) ?efficiency) ?packages) ?severities) (.text .nil)⟩
  case names =>
    refine .plainLoop (lists_ident fun _ _ hs => hs.images) (.text (.out ?_ (.text .nil)))
    exact escapes_image fun s p hp _ => escapes_plain (eval_field hp rfl)
  case size => exact alike_imageLine _ (.out (escapes_imageField fun _ => field_size) .nil)
  case architecture =>
    exact alike_imageLine _ (.out (escapes_image fun s p hp _ =>
      escapes_orHyphen (eval_attribute (eval_imageStats hp) rfl)) (.text (.out (escapes_image
      fun s p hp _ => escapes_orHyphen (eval_attribute (eval_imageStats hp) rfl)) .nil)))
  case layers =>
    exact alike_imageLine _ (.out (escapes_imageField fun _ _ => ⟨_, rfl, trivial⟩) .nil)
  case efficiency =>
    exact alike_imageLine _ (.out (escapes_image fun s p hp _ =>
      escapes_plain (eval_oneDigit (eval_attribute (eval_imageStats hp) rfl))) (.text .nil))
  case packages =>
    exact alike_imageLine _ (.out (escapes_imageField fun _ _ => ⟨_, rfl, trivial⟩) .nil)
  case severities =>
    have himages : ∀ s s', InRound SeesImages "severity" Texts s s' →
        Sees (ListOf Images) "images" s s' :=
      .of_round (fun _ _ hs => hs.images) (by decide) (by decide)
    refine .cutLoop (lists_ident fun _ _ hs => hs.severities) (.append (.append
      (.text (.out escapes_severity (.text (.out escapes_severity (.text .nil)))))
      (.plainLoop (lists_ident himages) (.text (.out ?_ (.text .nil))))) (.text .nil))
    intro s s' h
    have hseverity : Sees Texts "severity" s s' :=
      .of_round (fun _ _ hs => hs.sees) (by decide) (by decide) s s' h
    obtain ⟨p, q, hp, hq, -⟩ := h.sees
    obtain ⟨t, t', ht, ht'⟩ := hseverity
    exact ⟨escapes_count (eval_imageStats hp) ht, escapes_count (eval_imageStats hq) ht'⟩

/-! ## Pages -/

def pageScope (heading : String) (values : List (String × Value)) : Scope :=
  { globals := ("title", .ofString heading) :: values }

/-- A page after its title prints the same marks for values that are related. -/
theorem exists_page {heading : String} {page segments : List Segment}
    (hsegments : segments = title heading :: page) (h : Alike R page) :
    ∃ t, Template.ofSegments? segments = some t ∧ ∀ values values',
      R (pageScope heading values) (pageScope heading values') →
        ∃ u u', t.render true values = .ok u ∧ t.render true values' = .ok u' ∧
          marks u = marks u' := by
  obtain ⟨nodes, hnodes, hrun⟩ := h.upTo false false ""
  subst hsegments
  refine ⟨_, (Stands.set hnodes).ofSegments?_eq, fun values values' hvalues => ?_⟩
  obtain ⟨u, u', hu, hu', hmarks⟩ := hrun _ _ hvalues
  have htitle : ∀ values : List (String × Value), run true { globals := values }
      (.set (.one "title") (.literal (.text .single (Text.ofString heading)))) =
        .ok (pageScope heading values, []) := fun _ => rfl
  exact ⟨_, _, Template.render_eq (runAll_append (runAll_ofText ..) (runAll_cons (htitle _) hu)),
    Template.render_eq (runAll_append (runAll_ofText ..) (runAll_cons (htitle _) hu')),
    by simpa using hmarks⟩

theorem seesImage {d d' : Documentation} {stats stats' : Option ImageStats}
    {options options' : ReportOptions} {data data' : Json}
    (hitems : List.Forall₂ Item.SameShape d.items d'.items)
    (hstats : Option.Rel ImageStats.SameShape stats stats') (hsizes : ∀ s ∈ stats, s.HasSizes)
    (hsizes' : ∀ s ∈ stats', s.HasSizes) (heading : String) :
    SeesImage (pageScope heading (Report.imageValues d stats options data))
      (pageScope heading (Report.imageValues d' stats' options' data')) := by
  refine ⟨⟨_, _, rfl, rfl⟩, ⟨_, _, rfl, rfl, ?_⟩, ?_⟩
  · rw [List.forall₂_map_left_iff, List.forall₂_map_right_iff]
    exact hitems.imp fun i j hij => ⟨i, j, rfl, rfl, hij⟩
  · cases hstats with
    | none => exact .inl ⟨rfl, rfl⟩
    | @some a b hshape =>
      refine .inr ⟨⟨a, b, rfl, rfl, hshape, hsizes a rfl, hsizes' b rfl⟩, _, _, rfl, rfl, ?_⟩
      exact forall₂_map (fun _ _ => ⟨_, _, rfl, rfl⟩) rfl

theorem seesImages {images images' : List (String × ImageStats)} {options options' : ReportOptions}
    {data data' : Json} (hlength : images.length = images'.length)
    (hsizes : ∀ p ∈ images, ∃ t, p.2.sizeText = .ok t)
    (hsizes' : ∀ p ∈ images', ∃ t, p.2.sizeText = .ok t) (heading : String) :
    SeesImages (pageScope heading (Report.comparisonValues images options data))
      (pageScope heading (Report.comparisonValues images' options' data')) := by
  refine ⟨⟨_, _, rfl, rfl⟩, ⟨images.map namedImage, images'.map namedImage, rfl, rfl, ?_⟩,
    _, _, rfl, rfl, forall₂_map (fun _ _ => ⟨_, _, rfl, rfl⟩) rfl⟩
  rw [List.forall₂_iff_get]
  refine ⟨by simpa using hlength, fun i hi hi' => ?_⟩
  rw [List.length_map] at hi hi'
  exact ⟨images[i], images'[i], by simp, by simp, hsizes _ (List.getElem_mem hi),
    hsizes' _ (List.getElem_mem hi')⟩

/-- No data adds markup to a page. Two reports about an image of the same shape have the same marks,
and so have two comparisons of the same number of images, whatever all texts, numbers and options
are otherwise. -/
theorem pages_alike :
    (∃ t, Report.builtinTemplate "html" .image = .ok t ∧
      ∀ (d d' : Documentation) (stats stats' : Option ImageStats)
        (options options' : ReportOptions),
        List.Forall₂ Item.SameShape d.items d'.items →
        Option.Rel ImageStats.SameShape stats stats' →
        (∀ s ∈ stats, s.HasSizes) → (∀ s ∈ stats', s.HasSizes) →
        ∃ u u', Report.image t .html d stats options = .ok u ∧
          Report.image t .html d' stats' options' = .ok u' ∧ marks u = marks u') ∧
    ∃ t, Report.builtinTemplate "html" .comparison = .ok t ∧
      ∀ (images images' : List ImageStats) (labels labels' : List String)
        (options options' : ReportOptions),
        images.length = images'.length →
        (∀ s ∈ images, ∃ size, s.sizeText = .ok size) →
        (∀ s ∈ images', ∃ size, s.sizeText = .ok size) →
        ∃ u u', Report.comparison t .html images labels options = .ok u ∧
          Report.comparison t .html images' labels' options' = .ok u' ∧ marks u = marks u' := by
  constructor
  · obtain ⟨page, hpage, halike⟩ := alike_image
    obtain ⟨t, ht, hprint⟩ := exists_page hpage halike
    refine ⟨t, Report.builtinTemplate_eq rfl ht, ?_⟩
    intro d d' stats stats' options options' hitems hstats hsizes hsizes'
    obtain ⟨data, hdata⟩ := Report.exists_imageData d.items fun s hs => (hsizes s hs).size
    obtain ⟨data', hdata'⟩ := Report.exists_imageData d'.items fun s hs => (hsizes' s hs).size
    obtain ⟨u, u', hu, hu', hmarks⟩ := hprint _ _ (seesImage hitems hstats hsizes hsizes' _)
    exact ⟨u, u', Report.image_eq hdata hu, Report.image_eq hdata' hu', hmarks⟩
  · obtain ⟨page, hpage, halike⟩ := alike_comparison
    obtain ⟨t, ht, hprint⟩ := exists_page hpage halike
    refine ⟨t, Report.builtinTemplate_eq rfl ht, ?_⟩
    intro images images' labels labels' options options' hlength hsizes hsizes'
    have hnamed : ∀ p ∈ Report.withNames labels images, ∃ size, p.2.sizeText = .ok size :=
      fun p hp => hsizes _ (Report.of_mem_withNames hp)
    have hnamed' : ∀ p ∈ Report.withNames labels' images', ∃ size, p.2.sizeText = .ok size :=
      fun p hp => hsizes' _ (Report.of_mem_withNames hp)
    obtain ⟨data, hdata⟩ := Report.exists_comparisonData hnamed
    obtain ⟨data', hdata'⟩ := Report.exists_comparisonData hnamed'
    rw [← Report.length_withNames labels, ← Report.length_withNames labels'] at hlength
    obtain ⟨u, u', hu, hu', hmarks⟩ := hprint _ _ (seesImages hlength hnamed hnamed' _)
    exact ⟨u, u', Report.comparison_eq hdata hu, Report.comparison_eq hdata' hu', hmarks⟩

/-- A page about data that is full of markup has the marks of a page about plain data. -/
theorem pages_alike_of_markup :
    let item : Item := ⟨"A\"><script>", .arg, "<b>", "\"", true⟩
    let plain : Item := ⟨"A", .env, "", "1", false⟩
    let stats : ImageStats := { os := Text.ofString "<i>", warnings := ["</ul>"] }
    (∃ t u u', Report.builtinTemplate "html" .image = .ok t ∧
      Report.image t .html ⟨[item]⟩ (some stats) {} = .ok u ∧
      Report.image t .html ⟨[plain]⟩ (some { warnings := [""] }) ⟨true, "<"⟩ = .ok u' ∧
      marks u = marks u') ∧
    ∃ t u u', Report.builtinTemplate "html" .comparison = .ok t ∧
      Report.comparison t .html [stats] ["<th>"] {} = .ok u ∧
      Report.comparison t .html [{}] [] {} = .ok u' ∧ marks u = marks u' := by
  intro item plain stats
  obtain ⟨⟨t, ht, himage⟩, t', ht', hcomparison⟩ := pages_alike
  have hsizes : ∀ s : ImageStats, s.sizeBytes = 0 → s.wastedBytes = 0 → s.HasSizes := by
    intro s hsize hwasted
    constructor
    · rw [ImageStats.sizeText, hsize]
      exact ⟨_, rfl⟩
    · rw [ImageStats.wastedText, hwasted]
      exact ⟨_, rfl⟩
  constructor
  · have hsome : ∀ a : ImageStats, a.HasSizes → ∀ s ∈ some a, s.HasSizes := by
      rintro a ha s ⟨⟩
      exact ha
    obtain ⟨u, u', hu, hu', hmarks⟩ := himage ⟨[item]⟩ ⟨[plain]⟩ (some stats)
      (some { warnings := [""] }) {} ⟨true, "<"⟩ (.cons (by decide) .nil)
      (.some ⟨rfl, rfl, rfl, rfl⟩) (hsome _ (hsizes _ rfl rfl)) (hsome _ (hsizes _ rfl rfl))
    exact ⟨t, u, u', ht, hu, hu', hmarks⟩
  · obtain ⟨u, u', hu, hu', hmarks⟩ := hcomparison [stats] [{}] ["<th>"] [] {} {} rfl
      (by simpa using (hsizes stats rfl rfl).size) (by simpa using (hsizes {} rfl rfl).size)
    exact ⟨t', u, u', ht', hu, hu', hmarks⟩

end Html
end ContainerDocs

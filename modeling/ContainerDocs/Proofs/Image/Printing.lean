import ContainerDocs.Proofs.Image.Grammar

/-!
# Printed image references

The full name of a reference is read back as the reference, and the short name is always read. The
short name names the same image unless what was left out is not what reading supplies.

## Main definitions

* `ImageReference.WellFormed` — what is true of every reference that has been read.
* `ImageReference.Recoverable` — the references whose short names supply what they leave out.

## Main statements

* `ImageReference.wellFormed_of_parse` — what is read is well formed.
* `ImageReference.exists_parse_withVersion` — a path with the version of a reference is read.
* `ImageReference.parse_fullName_of_wellFormed`, `ImageReference.parse_fullName` — the full name is
  a canonical form.
* `ImageReference.parse_shortName` — when the short name names the same image.
-/

namespace ContainerDocs
namespace ImageReference

variable {s : String} {r : ImageReference}

/-! ## Well-formed references -/

structure WellFormed (r : ImageReference) : Prop where
  slash_notMem : '/' ∉ r.registry.toList
  isRegistry : IsRegistry r.registry.toList
  at_notMem : '@' ∈ r.registry.toList → r.digest ≠ none
  component_mem : ∀ part ∈ pieces r.repository.toList, part ∈ componentPattern
  tag_mem : ∀ t ∈ r.tag, t.toList ∈ tagPattern
  digest_mem : ∀ d ∈ r.digest, d.toList ∈ digestPattern
  tag_ne_none : r.digest = none → r.tag ≠ none
  plain_registry : Plain r.registry.toList
  plain_repository : Plain r.repository.toList
  plain_tag : ∀ t ∈ r.tag, Plain t.toList
  plain_digest : ∀ d ∈ r.digest, Plain d.toList

theorem plain_marked {mark : Char} {text : Option (List Char)}
    (hmark : Blank.isBlank mark = false) :
    Plain (marked mark text) ↔ ∀ t ∈ text, Plain t := by
  cases text with
  | none => simp [Plain]
  | some t => simp [hmark]

theorem registry_locate (path : List Char) :
    '/' ∉ (locate (pieces path)).1 ∧ IsRegistry (locate (pieces path)).1 ∧
      ∀ c ∈ (locate (pieces path)).1, c ∈ path ∨ c ∈ defaultRegistry.toList := by
  obtain ⟨first, rest, rfl, hfirst, hregistry, hlocate⟩ | ⟨-, hlocate⟩ := locate_pieces path
  · rw [hlocate]
    exact ⟨hfirst, hregistry, fun c hc => .inl (List.mem_append_left _ hc)⟩
  · rw [hlocate]
    dsimp only
    exact ⟨by decide, .inl (by decide), fun c hc => .inr hc⟩

theorem repository_locate (path : List Char) :
    (locate (pieces path)).2 ≠ [] ∧ ∀ c ∈ List.intercalate ['/'] (locate (pieces path)).2,
      c ∈ path ∨ c ∈ officialPath.toList := by
  obtain ⟨first, rest, rfl, -, -, hlocate⟩ | ⟨-, hlocate⟩ := locate_pieces path
  · rw [hlocate]
    refine ⟨Blank.splitOn_ne_nil rest, fun c hc => .inl ?_⟩
    rw [intercalate_pieces] at hc
    simp [hc]
  · rw [hlocate]
    dsimp only
    by_cases hslash : '/' ∈ path
    · rw [if_pos hslash, intercalate_pieces]
      exact ⟨Blank.splitOn_ne_nil path, fun c hc => .inl hc⟩
    · rw [if_neg hslash, intercalate_library]
      exact ⟨by simp, fun c hc => (List.mem_append.1 hc).symm⟩

/-- What a path with a tag and a digest makes is well formed. -/
theorem wellFormed_assemble {path : List Char} {tag digest : Option (List Char)}
    (hparts : ∀ part ∈ (locate (pieces path)).2, isComponent part = true)
    (htag : ∀ t ∈ tag, t ∈ tagPattern) (hdigest : ∀ d ∈ digest, d ∈ digestPattern)
    (hat : digest = none → '@' ∉ path)
    (hplain : Plain (path ++ marked ':' tag ++ marked '@' digest)) :
    (assemble path tag digest).WellFormed := by
  obtain ⟨hslash, hregistry, hmem⟩ := registry_locate path
  obtain ⟨hne, hmem'⟩ := repository_locate path
  rw [plain_append, plain_append, plain_marked (by decide), plain_marked (by decide)] at hplain
  obtain ⟨⟨hpath, hplaintag⟩, hplaindigest⟩ := hplain
  have hdefault :
      ∀ t ∈ (tag.map String.ofList).or (if digest = none then some defaultTag else none),
        t.toList ∈ tagPattern ∧ Plain t.toList := by
    cases tag with
    | some t => simpa using ⟨htag t rfl, hplaintag t rfl⟩
    | none =>
      intro t ht
      obtain rfl : t = defaultTag := by
        by_cases hnone : digest = none <;> simp [hnone] at ht
        exact ht.symm
      exact ⟨isTag_iff.1 (by decide), by decide⟩
  constructor
  case slash_notMem => rwa [assemble, String.toList_ofList]
  case isRegistry => rwa [assemble, String.toList_ofList]
  case at_notMem =>
    rw [assemble, String.toList_ofList]
    intro hmemat hnone
    have hnone : digest = none := by simpa using hnone
    obtain hc | hc := hmem '@' hmemat
    · exact hat hnone hc
    · exact absurd hc (by decide)
  case component_mem =>
    rw [assemble, String.toList_ofList,
      pieces_intercalate hne fun part hpart => (notMem_of_isComponent (hparts part hpart)).1]
    exact fun part hpart => isComponent_iff.1 (hparts part hpart)
  case tag_mem => exact fun t ht => (hdefault t ht).1
  case digest_mem => simpa [assemble] using hdigest
  case tag_ne_none =>
    intro hnone
    have hnone : digest = none := by simpa [assemble] using hnone
    simp [assemble, hnone]
  case plain_registry =>
    rw [assemble, String.toList_ofList]
    exact fun c hc => (hmem c hc).elim (hpath c) ((by decide : Plain defaultRegistry.toList) c)
  case plain_repository =>
    rw [assemble, String.toList_ofList]
    exact fun c hc => (hmem' c hc).elim (hpath c) ((by decide : Plain officialPath.toList) c)
  case plain_tag => exact fun t ht => (hdefault t ht).2
  case plain_digest => simpa [assemble] using hplaindigest

/-- What is read is well formed. -/
theorem wellFormed_of_parse (h : parse s = .ok r) : r.WellFormed := by
  obtain ⟨hplain, f, htext⟩ := exists_text_of_parse h
  obtain ⟨r', h', hreads⟩ := exists_parse_of_text hplain htext
  obtain rfl : r = r' := Except.ok.inj (h.symm.trans h')
  obtain rfl : r = assemble f.path f.tag f.digest := hreads.unique f.reads_assemble
  refine wellFormed_assemble f.isComponent_of_mem_locate f.tag_mem f.digest_mem
    (fun hnone hat => f.at_notMem_path hnone (by simp [hat])) ?_
  rwa [← htext] at hplain

/-! ## Paths with a version -/

theorem toList_joined (a mark b : String) :
    (a ++ mark ++ b).toList = a.toList ++ (mark.toList ++ b.toList) := by
  rw [String.toList_append, String.toList_append, List.append_assoc]

def shownTag (r : ImageReference) : Option String := if r.digest = none then r.tag else none

theorem toList_withVersion (h : r.WellFormed) (name : String) : (r.withVersion name).toList =
    name.toList ++ marked ':' (r.shownTag.map String.toList) ++
      marked '@' (r.digest.map String.toList) := by
  cases hdigest : r.digest with
  | some d =>
    have hne : d ≠ "" := by
      rintro rfl
      exact absurd (isDigest_iff.2 (h.digest_mem "" hdigest)) (by decide)
    have hversion : r.withVersion name = name ++ "@" ++ d := by
      simp [withVersion, hdigest, Option.filter, hne]
    rw [hversion, toList_joined]
    simp [shownTag, hdigest]
  | none =>
    obtain ⟨t, htag⟩ := Option.ne_none_iff_exists'.1 (h.tag_ne_none hdigest)
    have hne : t ≠ "" := by
      rintro rfl
      exact absurd (isTag_iff.2 (h.tag_mem "" htag)) (by decide)
    have hversion : r.withVersion name = name ++ ":" ++ t := by
      simp [withVersion, hdigest, htag, Option.filter, hne]
    rw [hversion, toList_joined]
    simp [shownTag, hdigest, htag]

theorem mem_tag_of_mem_shownTag {t : String} (h : t ∈ r.shownTag) : t ∈ r.tag := by
  rw [shownTag] at h
  split_ifs at h
  · exact h
  · exact nomatch h

/-- A path that is made of components, which a registry may stand in front of, is read together with
the version of a reference. -/
theorem exists_parse_withVersion (h : r.WellFormed) {name : String}
    {registry : Option (List Char)} {components : List (List Char)}
    (hname : name.toList = List.intercalate ['/'] (registry.toList ++ components))
    (hregistry : ∀ part ∈ registry, part = r.registry.toList)
    (hne : components ≠ []) (hcomponents : ∀ part ∈ components, part ∈ componentPattern)
    (hplain : Plain name.toList) :
    ∃ r', parse (r.withVersion name) = .ok r' ∧ Form.Names name.toList r' ∧
      r'.tag = r.shownTag ∧ r'.digest = r.digest := by
  let f : Form := {
    registry, components
    tag := r.shownTag.map String.toList
    digest := r.digest.map String.toList
    components_ne_nil := hne
    component_mem := hcomponents
    tag_mem := by simpa using fun t ht => h.tag_mem t (mem_tag_of_mem_shownTag ht)
    digest_mem := by simpa using h.digest_mem
    registry_ne_nil := fun part hpart => hregistry part hpart ▸ h.isRegistry.ne_nil
    slash_notMem := fun part hpart => hregistry part hpart ▸ h.slash_notMem
    isRegistry := fun part hpart => hregistry part hpart ▸ h.isRegistry
    at_notMem := fun part hpart hat => by
      simpa using h.at_notMem (hregistry part hpart ▸ hat) }
  have htext : f.text = (r.withVersion name).toList := by
    rw [toList_withVersion h, hname]
    rfl
  have hplain : Plain (r.withVersion name).toList := by
    rw [toList_withVersion h, plain_append, plain_append, plain_marked (by decide),
      plain_marked (by decide)]
    refine ⟨⟨hplain, ?_⟩, by simpa using h.plain_digest⟩
    simpa using fun t ht => h.plain_tag t (mem_tag_of_mem_shownTag ht)
  obtain ⟨r', hparse, hreads⟩ := exists_parse_of_text hplain htext
  refine ⟨r', hparse, ?_, ?_, ?_⟩
  · rw [hname]
    exact hreads.toNames
  · rw [hreads.tag]
    cases hdigest : r.digest with
    | some d => simp [f, shownTag, hdigest]
    | none =>
      obtain ⟨t, htag⟩ := Option.ne_none_iff_exists'.1 (h.tag_ne_none hdigest)
      simp [f, shownTag, hdigest, htag]
  · rw [hreads.digest]
    simp [f, Function.comp_def]

/-! ## The full name -/

theorem toList_fullPath : (r.registry ++ "/" ++ r.repository).toList =
    r.registry.toList ++ '/' :: r.repository.toList :=
  toList_joined ..

/-- The full name of a reference is read as the reference, without the tag that a digest hides. -/
theorem parse_fullName_of_wellFormed (h : r.WellFormed) :
    parse r.fullName = .ok { r with tag := r.shownTag } := by
  have hname : (r.registry ++ "/" ++ r.repository).toList =
      List.intercalate ['/'] ((some r.registry.toList).toList ++ pieces r.repository.toList) := by
    rw [toList_fullPath, Option.toList_some, List.singleton_append,
      List.intercalate_cons_of_ne_nil (Blank.splitOn_ne_nil _), intercalate_pieces,
      List.append_assoc, List.singleton_append]
  have hplain : Plain (r.registry ++ "/" ++ r.repository).toList := by
    rw [toList_fullPath, plain_append, plain_cons]
    exact ⟨h.plain_registry, by decide, h.plain_repository⟩
  obtain ⟨r', hparse, hnames, htag, hdigest⟩ := exists_parse_withVersion h hname (by simp)
    (Blank.splitOn_ne_nil _) h.component_mem hplain
  obtain ⟨hregistry, hrepository⟩ :=
    hnames.qualified _ _ toList_fullPath h.slash_notMem h.isRegistry
  obtain ⟨registry, repository, tag, digest⟩ := r'
  obtain rfl : registry = r.registry := String.toList_inj.1 hregistry
  obtain rfl : repository = r.repository := String.toList_inj.1 hrepository
  obtain rfl : tag = r.shownTag := htag
  obtain rfl : digest = r.digest := hdigest
  exact hparse

/-- References with one full name differ at most in tags that their digests hide. -/
theorem fullName_eq_iff {r' : ImageReference} (h : r.WellFormed) (h' : r'.WellFormed) :
    r'.fullName = r.fullName ↔ r'.registry = r.registry ∧ r'.repository = r.repository ∧
      r'.shownTag = r.shownTag ∧ r'.digest = r.digest := by
  constructor
  · intro heq
    have hparse := parse_fullName_of_wellFormed h'
    rw [heq, parse_fullName_of_wellFormed h] at hparse
    obtain ⟨hregistry, hrepository, htag, hdigest⟩ := ImageReference.mk.inj (Except.ok.inj hparse)
    exact ⟨hregistry.symm, hrepository.symm, htag.symm, hdigest.symm⟩
  · rintro ⟨hregistry, hrepository, htag, hdigest⟩
    refine String.toList_inj.1 ?_
    rw [fullName, fullName, toList_withVersion h', toList_withVersion h, htag, hdigest, hregistry,
      hrepository]

theorem fullName_shown (h : r.WellFormed) :
    fullName { r with tag := r.shownTag } = r.fullName := by
  have hshown := wellFormed_of_parse (parse_fullName_of_wellFormed h)
  refine (fullName_eq_iff h hshown).2 ⟨rfl, rfl, ?_, rfl⟩
  by_cases hdigest : r.digest = none <;> simp [shownTag, hdigest]

/-- The full name is a canonical form: it is read as the reference that it was printed for, without
the tag that a digest hides, and no other reference has it. -/
theorem parse_fullName (h : parse s = .ok r) :
    (∃ r', parse r.fullName = .ok r' ∧ r'.registry = r.registry ∧ r'.repository = r.repository ∧
      r'.digest = r.digest ∧ r'.tag = (if r.digest = none then r.tag else none) ∧
      r'.fullName = r.fullName) ∧
    ∀ s' r', parse s' = .ok r' → r'.fullName = r.fullName →
      r'.registry = r.registry ∧ r'.repository = r.repository ∧ r'.digest = r.digest ∧
      (r.digest = none → r'.tag = r.tag) := by
  have hr := wellFormed_of_parse h
  constructor
  · exact ⟨_, parse_fullName_of_wellFormed hr, rfl, rfl, rfl, rfl, fullName_shown hr⟩
  · intro s' r' h' heq
    obtain ⟨hregistry, hrepository, htag, hdigest⟩ :=
      (fullName_eq_iff hr (wellFormed_of_parse h')).1 heq
    refine ⟨hregistry, hrepository, hdigest, fun hnone => ?_⟩
    rwa [shownTag, shownTag, if_pos hnone, if_pos (hdigest.trans hnone)] at htag

/-- A reference with a port, a tag and a digest loses the tag in its full name. -/
theorem parse_fullName_of_port :
    let s := "localhost:5000/app:1@sha256:00000000000000000000000000000000"
    let r : ImageReference :=
      ⟨"localhost:5000", "app", some "1", some "sha256:00000000000000000000000000000000"⟩
    parse s = .ok r ∧ r.fullName = "localhost:5000/app@sha256:00000000000000000000000000000000" ∧
    ∃ r', parse r.fullName = .ok r' ∧ r'.registry = r.registry ∧ r'.repository = r.repository ∧
      r'.digest = r.digest ∧ r'.tag = none ∧ r'.fullName = r.fullName := by
  intro s r
  have hparse : parse s = .ok r := by decide
  exact ⟨hparse, by decide, (parse_fullName hparse).1⟩

/-! ## The short name -/

/-- The references whose short names supply what they leave out: those outside the default registry,
and in it the paths of one component under `library` and the longer paths that start neither with
`library` nor with what can only be a registry. -/
def Recoverable (r : ImageReference) : Prop :=
  r.registry = "docker.io" →
    (∃ part, '/' ∉ part ∧ r.repository.toList = "library/".toList ++ part) ∨
    ∃ first rest, r.repository.toList = first ++ '/' :: rest ∧ '/' ∉ first ∧
      first ≠ "library".toList ∧ ¬ IsRegistry first

section ShortName

variable {path : List Char} {r' : ImageReference}

theorem officialPath_append (path : List Char) :
    officialPath.toList ++ path = "library".toList ++ '/' :: path := rfl

theorem length_officialPath_append (path : List Char) :
    (officialPath.toList ++ path).length = path.length + 8 := by
  rw [List.length_append, Nat.add_comm]
  rfl

/-- A path is read as the path under `library` exactly if it has one part. -/
theorem names_official_iff (h : Form.Names path r') :
    (r'.registry = defaultRegistry ∧ r'.repository.toList = officialPath.toList ++ path) ↔
      '/' ∉ path := by
  have hlength := length_officialPath_append path
  constructor
  · rintro ⟨-, hrepository⟩ hslash
    obtain ⟨first, rest, hpath, hfirst, hregistry, -⟩ | ⟨hno, -⟩ := locate_pieces path
    · have hrest := (h.qualified first rest hpath hfirst hregistry).2
      rw [hrepository] at hrest
      rw [hrest, hpath] at hlength
      simp at hlength
      omega
    · have hself := (h.unqualified hno).2
      rw [hrepository, if_pos hslash] at hself
      rw [hself] at hlength
      omega
  · intro hslash
    have hunqualified := h.unqualified fun first rest hpath => absurd (by simp [hpath]) hslash
    rwa [if_neg hslash] at hunqualified

/-- A path is read as it is in the default registry exactly if its first part is followed by another
one and can be a component. -/
theorem names_self_iff (h : Form.Names path r') :
    (r'.registry = defaultRegistry ∧ r'.repository.toList = path) ↔
      ∃ first rest, path = first ++ '/' :: rest ∧ '/' ∉ first ∧ ¬ IsRegistry first := by
  constructor
  · rintro ⟨-, hrepository⟩
    obtain ⟨first, rest, hpath, hfirst, hregistry, -⟩ | ⟨hno, -⟩ := locate_pieces path
    · have hrest := (h.qualified first rest hpath hfirst hregistry).2
      have hlength := congrArg List.length (hrepository.symm.trans hrest)
      rw [hpath] at hlength
      simp at hlength
      omega
    · by_cases hslash : '/' ∈ path
      · obtain ⟨first, rest, hpath, hfirst⟩ := List.eq_append_cons_of_mem hslash
        exact ⟨first, rest, hpath, hfirst, hno first rest hpath hfirst⟩
      · have hself : r'.repository.toList =
            if '/' ∈ path then path else officialPath.toList ++ path := (h.unqualified hno).2
        have hlength := length_officialPath_append path
        rw [hrepository, if_neg hslash] at hself
        rw [← hself] at hlength
        omega
  · rintro ⟨first, rest, hpath, hfirst, hregistry⟩
    have hunqualified := h.unqualified fun first' rest' hpath' hfirst' => by
      rwa [← (append_cons_inj hfirst hfirst' (hpath.symm.trans hpath')).1]
    rwa [if_pos (by simp [hpath])] at hunqualified

theorem recoverable_iff_of_official (hr : r.registry = defaultRegistry)
    (h : r.repository.toList = officialPath.toList ++ path) : r.Recoverable ↔ '/' ∉ path := by
  constructor
  · intro hrecoverable
    obtain ⟨part, hpart, hrepository⟩ | ⟨first, rest, hrepository, hfirst, hne, -⟩ :=
      hrecoverable hr
    · rwa [List.append_cancel_left (h.symm.trans hrepository)]
    · rw [h, officialPath_append] at hrepository
      exact absurd (append_cons_inj (by decide) hfirst hrepository).1.symm hne
  · exact fun hslash _ => .inl ⟨path, hslash, h⟩

theorem recoverable_iff_of_not_official (hr : r.registry = defaultRegistry)
    (h : ∀ path, r.repository.toList ≠ officialPath.toList ++ path) : r.Recoverable ↔
      ∃ first rest, r.repository.toList = first ++ '/' :: rest ∧ '/' ∉ first ∧
        ¬ IsRegistry first := by
  constructor
  · intro hrecoverable
    obtain ⟨part, -, hrepository⟩ | ⟨first, rest, hrepository, hfirst, -, hregistry⟩ :=
      hrecoverable hr
    · exact absurd hrepository (h part)
    · exact ⟨first, rest, hrepository, hfirst, hregistry⟩
  · rintro ⟨first, rest, hrepository, hfirst, hregistry⟩ -
    refine .inr ⟨first, rest, hrepository, hfirst, ?_, hregistry⟩
    rintro rfl
    exact h rest hrepository

/-- The short name has the path without `library` in front, if it is in front, and else the path. -/
theorem shortName_cases (hr : r.registry = defaultRegistry) :
    ∃ path, r.shortName = r.withVersion path ∧
      (r.repository.toList = officialPath.toList ++ path.toList ∨
      path = r.repository ∧ ∀ rest, r.repository.toList ≠ officialPath.toList ++ rest) := by
  rw [shortName, if_pos hr]
  refine ⟨_, rfl, ?_⟩
  cases hrest : officialPath.toList.isPrefixOf? r.repository.toList with
  | some rest =>
    refine .inl ?_
    rw [String.toList_ofList]
    exact (List.isPrefixOf?_eq_some_iff_append_eq.1 hrest).symm
  | none =>
    refine .inr ⟨rfl, fun rest heq => ?_⟩
    have hsome := List.isPrefixOf?_eq_some_iff_append_eq.2 heq.symm
    rw [hrest] at hsome
    exact nomatch hsome

/-- The short name is read, and it is read as the same image exactly if it is recoverable. -/
theorem exists_parse_shortName (h : r.WellFormed) :
    ∃ r', parse r.shortName = .ok r' ∧ (r'.fullName = r.fullName ↔ r.Recoverable) := by
  by_cases hr : r.registry = defaultRegistry
  · obtain ⟨path, hshort, hpath⟩ := shortName_cases hr
    have hcomponents : ∀ part ∈ pieces path.toList, part ∈ componentPattern := by
      obtain hofficial | ⟨rfl, -⟩ := hpath
      · intro part hpart
        refine h.component_mem part ?_
        rw [hofficial, officialPath_append, pieces_append_cons (by decide)]
        exact List.mem_cons_of_mem _ hpart
      · exact h.component_mem
    have hplain : Plain path.toList := by
      obtain hofficial | ⟨rfl, -⟩ := hpath
      · have hrepository := h.plain_repository
        rw [hofficial, plain_append] at hrepository
        exact hrepository.2
      · exact h.plain_repository
    have hname : path.toList =
        List.intercalate ['/'] ((none : Option (List Char)).toList ++ pieces path.toList) :=
      (intercalate_pieces path.toList).symm
    obtain ⟨r', hparse, hnames, htag, hdigest⟩ := exists_parse_withVersion h hname (by simp)
      (Blank.splitOn_ne_nil _) hcomponents hplain
    refine ⟨r', hshort ▸ hparse, ?_⟩
    have hshown : r'.shownTag = r.shownTag := by
      rw [shownTag, htag, hdigest]
      by_cases hnone : r.digest = none <;> simp [shownTag, hnone]
    rw [fullName_eq_iff h (wellFormed_of_parse hparse), hr,
      ← @String.toList_inj r'.repository r.repository]
    simp only [hshown, hdigest, and_true]
    obtain hofficial | ⟨rfl, hno⟩ := hpath
    · rw [recoverable_iff_of_official hr hofficial, hofficial, names_official_iff hnames]
    · rw [recoverable_iff_of_not_official hr hno, names_self_iff hnames]
  · rw [shortName, if_neg hr]
    have hparse := parse_fullName_of_wellFormed h
    exact ⟨_, hparse, iff_of_true (fullName_shown h) fun hdefault => absurd hdefault hr⟩

/-- The short name is read. It names the same image exactly if it is recoverable, so that two images
with recoverable short names have different ones. -/
theorem parse_shortName (h : parse s = .ok r) :
    (∃ r', parse r.shortName = .ok r' ∧ (r'.fullName = r.fullName ↔ r.Recoverable)) ∧
    (r.Recoverable → ∀ s' r', parse s' = .ok r' → r'.Recoverable →
      r'.shortName = r.shortName → r'.fullName = r.fullName) := by
  refine ⟨exists_parse_shortName (wellFormed_of_parse h), fun hr s' r' h' hr' heq => ?_⟩
  obtain ⟨a, ha, hfull⟩ := exists_parse_shortName (wellFormed_of_parse h)
  obtain ⟨a', ha', hfull'⟩ := exists_parse_shortName (wellFormed_of_parse h')
  rw [heq, ha] at ha'
  obtain rfl : a = a' := Except.ok.inj ha'
  exact (hfull'.2 hr').symm.trans (hfull.2 hr)

/-- The short name of an official image names it. -/
theorem parse_shortName_of_official :
    let r : ImageReference := ⟨"docker.io", "library/nginx", some "1.25", none⟩
    parse "nginx:1.25" = .ok r ∧ r.Recoverable ∧ r.shortName = "nginx:1.25" ∧
    ∃ r', parse r.shortName = .ok r' ∧ r'.fullName = r.fullName := by
  intro r
  have hparse : parse "nginx:1.25" = .ok r := by decide
  have hrecoverable : r.Recoverable := fun _ => .inl ⟨"nginx".toList, by decide, by decide⟩
  obtain ⟨⟨r', hshort, hiff⟩, -⟩ := parse_shortName hparse
  exact ⟨hparse, hrecoverable, by decide, r', hshort, hiff.2 hrecoverable⟩

/-- The short name of a longer path under `library` is that of another image. -/
theorem parse_shortName_of_nested :
    let r : ImageReference := ⟨"docker.io", "library/a/b", some "latest", none⟩
    let r' : ImageReference := ⟨"docker.io", "a/b", some "latest", none⟩
    parse "library/a/b" = .ok r ∧ parse "a/b" = .ok r' ∧ parse r.shortName = .ok r' ∧
    r'.fullName ≠ r.fullName ∧ r'.shortName = r.shortName := by decide

end ShortName

end ImageReference
end ContainerDocs

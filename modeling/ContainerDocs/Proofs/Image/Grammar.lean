import ContainerDocs.Proofs.Image.Pattern
import ContainerDocs.Proofs.Text.Blank

/-!
# The grammar of image references

An image reference is written as a path of components, which a registry may stand in front of and
which a tag and a digest may follow. Reading cuts at the last `@` and the last colon before it knows
the parts, and still finds the parts of every reference that is written so and of nothing else.

## Main definitions

* `ImageReference.Form` — a reference in writing.
* `ImageReference.Form.text` — the text of a form.
* `ImageReference.Form.Names`, `ImageReference.Form.Reads` — the reference that a form stands for.

## Main statements

* `ImageReference.splitDigest_eq_ok_iff`, `ImageReference.splitTag_eq_ok_iff` — what the cuts find.
* `ImageReference.exists_parse_of_text` — the text of a form is read as the form says.
* `ImageReference.exists_text_of_parse` — what is read is the text of a form.
* `ImageReference.parse_grammar` — the two together.
-/

namespace ContainerDocs
namespace ImageReference

/-! ## Characters of the parts -/

section Cuts

variable {c : Char} {cs name path : List Char} {tag digest : Option (List Char)}

theorem Place.of_next {p q : Place} (h : p.next c = some q) :
    isComponentChar c = true ∨ c = '.' ∨ c = '_' ∨ c = '-' := by
  by_contra! hno
  cases p <;> simp_all [next]

theorem mem_of_isComponentFrom {p : Place} (h : isComponentFrom p cs = true) :
    ∀ c ∈ cs, isComponentChar c = true ∨ c = '.' ∨ c = '_' ∨ c = '-' := by
  induction cs generalizing p with
  | nil => simp
  | cons d cs ih =>
    rw [isComponentFrom] at h
    cases hq : p.next d with
    | none => simp [hq] at h
    | some q =>
      rw [hq] at h
      exact List.forall_mem_cons.2 ⟨Place.of_next hq, ih h⟩

theorem notMem_of_isComponent (h : isComponent cs = true) : '/' ∉ cs ∧ ':' ∉ cs ∧ '@' ∉ cs := by
  refine ⟨?_, ?_, ?_⟩ <;> intro hc <;>
    exact absurd (mem_of_isComponentFrom h _ hc) (by decide)

theorem notMem_of_isTag (h : isTag cs = true) : '/' ∉ cs ∧ ':' ∉ cs ∧ '@' ∉ cs := by
  have hall : ∀ c ∈ cs, isTagChar c = true := by
    cases cs with
    | nil => simp
    | cons c rest =>
      simp only [isTag, Bool.and_eq_true, List.all_eq_true] at h
      exact List.forall_mem_cons.2 ⟨by simp [isTagChar, h.1.1], h.2⟩
  refine ⟨?_, ?_, ?_⟩ <;> intro hc <;> exact absurd (hall _ hc) (by decide)

theorem notMem_of_isDigest (h : isDigest cs = true) : '@' ∉ cs := by
  obtain ⟨algorithm, hex, rfl, halgorithm, -, hhex⟩ := isDigest_iff_exists.1 h
  have hnot : '@' ∉ algorithm := notMem_of_isAlgorithm (by decide) (by decide) halgorithm
  have hnothex : '@' ∉ hex := fun hc => absurd (hhex _ hc) (by decide)
  simp [hnot, hnothex]

/-! ## Cuts -/

theorem cutAtLast_of_notMem (h : c ∉ cs) : cutAtLast c cs = none := by
  induction cs with
  | nil => rfl
  | cons d cs ih =>
    rw [List.mem_cons, not_or] at h
    simp [cutAtLast, ih h.2, Ne.symm h.1]

theorem cutAtLast_append_cons {before after : List Char} (h : c ∉ after) :
    cutAtLast c (before ++ c :: after) = some (before, after) := by
  induction before with
  | nil => simp [cutAtLast, cutAtLast_of_notMem h]
  | cons d before ih => simp [cutAtLast, ih]

/-- A text has no occurrence of a character or a last one. -/
theorem notMem_or_exists_last (c : Char) (cs : List Char) :
    c ∉ cs ∨ ∃ before after, c ∉ after ∧ cs = before ++ c :: after := by
  by_cases h : c ∈ cs
  · obtain ⟨after, before, hcs, hafter⟩ := List.eq_append_cons_of_mem (List.mem_reverse.2 h)
    refine .inr ⟨before.reverse, after.reverse, by simpa using hafter, ?_⟩
    simpa using congrArg List.reverse hcs
  · exact .inl h

def marked (mark : Char) (text : Option (List Char)) : List Char := text.elim [] (mark :: ·)

@[simp]
theorem marked_none {mark : Char} : marked mark none = [] := rfl

@[simp]
theorem marked_some {mark : Char} {text : List Char} : marked mark (some text) = mark :: text := rfl

/-- The digest is what follows the last `@`. -/
theorem splitDigest_eq_ok_iff : splitDigest cs = .ok (name, digest) ↔
    cs = name ++ marked '@' digest ∧ (∀ d ∈ digest, isDigest d = true) ∧
      (digest = none → '@' ∉ name) := by
  constructor
  · intro h
    obtain hcs | ⟨before, after, hafter, rfl⟩ := notMem_or_exists_last '@' cs
    · rw [splitDigest, cutAtLast_of_notMem hcs] at h
      obtain ⟨rfl, rfl⟩ : cs = name ∧ none = digest := by simpa using h
      simpa using hcs
    · rw [splitDigest, cutAtLast_append_cons hafter] at h
      dsimp only at h
      split_ifs at h with hdigest
      obtain ⟨rfl, rfl⟩ : before = name ∧ some after = digest := by simpa using h
      simpa using hdigest
  · rintro ⟨rfl, hdigest, hnone⟩
    cases digest with
    | none =>
      rw [marked_none, List.append_nil, splitDigest, cutAtLast_of_notMem (hnone rfl)]
    | some d =>
      have hd := hdigest d rfl
      rw [marked_some, splitDigest, cutAtLast_append_cons (notMem_of_isDigest hd)]
      exact if_pos hd

/-- The tag is what follows the last colon, unless a slash follows it. -/
theorem splitTag_eq_ok_iff : splitTag cs = .ok (path, tag) ↔
    cs = path ++ marked ':' tag ∧ (∀ t ∈ tag, isTag t = true) ∧
      (tag = none → ∀ before after, path = before ++ ':' :: after → '/' ∈ after) := by
  constructor
  · intro h
    obtain hcs | ⟨before, after, hafter, rfl⟩ := notMem_or_exists_last ':' cs
    · rw [splitTag, cutAtLast_of_notMem hcs] at h
      obtain ⟨rfl, rfl⟩ : cs = path ∧ none = tag := by simpa using h
      refine ⟨by simp, by simp, ?_⟩
      rintro - before after rfl
      simp at hcs
    · rw [splitTag, cutAtLast_append_cons hafter] at h
      dsimp only at h
      split_ifs at h with hslash htag
      · obtain ⟨rfl, rfl⟩ : before ++ ':' :: after = path ∧ none = tag := by simpa using h
        refine ⟨by simp, by simp, fun _ before' after' heq => ?_⟩
        have hslash : '/' ∈ after := List.contains_iff_mem.1 hslash
        obtain ⟨between, -, hbetween⟩ | ⟨between, -, hbetween⟩ := List.append_eq_append_iff.1 heq
        · cases between with
          | nil => simpa [(List.cons.inj hbetween).2] using hslash
          | cons d between => simp [(List.cons.inj hbetween).2] at hafter
        · -- an earlier colon has the last one and what follows it behind it
          have hmem : '/' ∈ ':' :: after' := by simp [hbetween, hslash]
          simpa using hmem
      · obtain ⟨rfl, rfl⟩ : before = path ∧ some after = tag := by simpa using h
        simpa using htag
  · rintro ⟨rfl, htag, hnone⟩
    cases tag with
    | none =>
      rw [marked_none, List.append_nil, splitTag]
      obtain hcs | ⟨before, after, hafter, rfl⟩ := notMem_or_exists_last ':' path
      · rw [cutAtLast_of_notMem hcs]
      · rw [cutAtLast_append_cons hafter]
        exact if_pos (List.contains_iff_mem.2 (hnone rfl before after rfl))
    | some t =>
      have ht := htag t rfl
      obtain ⟨hslash, hcolon, -⟩ := notMem_of_isTag ht
      rw [marked_some, splitTag, cutAtLast_append_cons hcolon]
      simp [ht, hslash]

end Cuts

/-! ## Forms -/

def Plain (cs : List Char) : Prop := ∀ c ∈ cs, Blank.isBlank c = false

instance : DecidablePred Plain := fun cs =>
  decidable_of_iff (cs.all (!Blank.isBlank ·) = true) (by simp [Plain])

@[simp]
theorem plain_append {cs ds : List Char} : Plain (cs ++ ds) ↔ Plain cs ∧ Plain ds :=
  List.forall_mem_append

@[simp]
theorem plain_cons {c : Char} {cs : List Char} :
    Plain (c :: cs) ↔ Blank.isBlank c = false ∧ Plain cs :=
  List.forall_mem_cons

/-- A part of a path that can only be a registry: it has a dot or a colon, or it is `localhost`. -/
def IsRegistry (part : List Char) : Prop :=
  '.' ∈ part ∨ ':' ∈ part ∨ part = "localhost".toList

theorem namesRegistry_iff {part : List Char} : namesRegistry part = true ↔ IsRegistry part := by
  simp [namesRegistry, IsRegistry, or_assoc]

/-- A reference in writing: components, which a registry may stand in front of and which a tag and a
digest may follow. Only a registry in front of a digest may have an `@`. -/
structure Form where
  registry : Option (List Char)
  components : List (List Char)
  tag : Option (List Char)
  digest : Option (List Char)
  components_ne_nil : components ≠ []
  component_mem : ∀ part ∈ components, part ∈ componentPattern
  tag_mem : ∀ t ∈ tag, t ∈ tagPattern
  digest_mem : ∀ d ∈ digest, d ∈ digestPattern
  registry_ne_nil : ∀ r ∈ registry, r ≠ []
  slash_notMem : ∀ r ∈ registry, '/' ∉ r
  isRegistry : ∀ r ∈ registry, IsRegistry r
  at_notMem : ∀ r ∈ registry, '@' ∈ r → digest ≠ none

namespace Form

def parts (f : Form) : List (List Char) := f.registry.toList ++ f.components

/-- The path of a form: its text up to the tag and the digest. -/
def path (f : Form) : List Char := List.intercalate ['/'] f.parts

def text (f : Form) : List Char := f.path ++ marked ':' f.tag ++ marked '@' f.digest

/-- What a path says of a reference. A first part that can only be a registry is one, whether or not
it could also be a component. -/
structure Names (path : List Char) (r : ImageReference) : Prop where
  qualified : ∀ first rest, path = first ++ '/' :: rest → '/' ∉ first → IsRegistry first →
    r.registry.toList = first ∧ r.repository.toList = rest
  unqualified : (∀ first rest, path = first ++ '/' :: rest → '/' ∉ first → ¬ IsRegistry first) →
    r.registry = "docker.io" ∧
    r.repository.toList = if '/' ∈ path then path else "library/".toList ++ path

structure Reads (f : Form) (r : ImageReference) : Prop extends Names f.path r where
  digest : r.digest = f.digest.map String.ofList
  tag : r.tag = (f.tag.map String.ofList).or (if f.digest = none then some "latest" else none)

end Form

/-! ## Paths -/

section Paths

variable {first rest path : List Char}

/-- The pieces of a text between slashes. -/
abbrev pieces (path : List Char) : List (List Char) := Blank.splitOn (· == '/') path

theorem pieces_append_cons (h : '/' ∉ first) :
    pieces (first ++ '/' :: rest) = first :: pieces rest :=
  Blank.splitOn_append_cons (fun d hd => by simpa using fun hslash : d = '/' => h (hslash ▸ hd)) rfl

theorem pieces_eq_singleton (h : '/' ∉ path) : pieces path = [path] :=
  Blank.splitOn_eq_singleton fun d hd => by simpa using fun hslash : d = '/' => h (hslash ▸ hd)

theorem intercalate_pieces (path : List Char) : List.intercalate ['/'] (pieces path) = path :=
  Blank.intercalate_splitOn '/' path

theorem pieces_intercalate {parts : List (List Char)} (hne : parts ≠ [])
    (h : ∀ part ∈ parts, '/' ∉ part) : pieces (List.intercalate ['/'] parts) = parts :=
  Blank.splitOn_intercalate rfl parts hne fun part hpart d hd => by
    simpa using fun hslash : d = '/' => h part hpart (hslash ▸ hd)

theorem intercalate_library (path : List Char) :
    List.intercalate ['/'] ["library".toList, path] = officialPath.toList ++ path := by
  rw [List.intercalate_cons_cons, List.intercalate_singleton]
  rfl

/-- There is one way to cut a path behind its first part. -/
theorem append_cons_inj {first' rest' : List Char} (h : '/' ∉ first) (h' : '/' ∉ first')
    (heq : first ++ '/' :: rest = first' ++ '/' :: rest') : first = first' ∧ rest = rest' := by
  have hpieces := congrArg pieces heq
  rw [pieces_append_cons h, pieces_append_cons h'] at hpieces
  obtain rfl := (List.cons.inj hpieces).1
  simpa using heq

theorem IsRegistry.ne_nil (h : IsRegistry first) : first ≠ [] := by
  rintro rfl
  simp [IsRegistry] at h

/-- Either the first part of a path can only be a registry and is one, or the path is a repository
of the default registry. -/
theorem locate_pieces (path : List Char) :
    (∃ first rest, path = first ++ '/' :: rest ∧ '/' ∉ first ∧ IsRegistry first ∧
      locate (pieces path) = (first, pieces rest)) ∨
    ((∀ first rest, path = first ++ '/' :: rest → '/' ∉ first → ¬ IsRegistry first) ∧
      locate (pieces path) = (defaultRegistry.toList,
        if '/' ∈ path then pieces path else ["library".toList, path])) := by
  by_cases hslash : '/' ∈ path
  · obtain ⟨first, rest, rfl, hfirst⟩ := List.eq_append_cons_of_mem hslash
    obtain ⟨second, more, hrest⟩ := List.exists_cons_of_ne_nil
      (Blank.splitOn_ne_nil (p := (· == '/')) rest)
    rw [if_pos hslash, pieces_append_cons hfirst, pieces, hrest, locate]
    by_cases hregistry : IsRegistry first
    · exact .inl ⟨first, rest, rfl, hfirst, hregistry, by
        rw [if_pos (namesRegistry_iff.2 hregistry), pieces, hrest]⟩
    · refine .inr ⟨fun first' rest' heq h' => ?_, by rw [if_neg (mt namesRegistry_iff.1 hregistry)]⟩
      rwa [← (append_cons_inj hfirst h' heq).1]
  · refine .inr ⟨fun first rest heq => absurd (by simp [heq]) hslash, ?_⟩
    rw [if_neg hslash, pieces_eq_singleton hslash]
    rfl

end Paths

/-! ## Reading -/

section Reading

variable {s : String} {r : ImageReference} {f : Form}

def assemble (path : List Char) (tag digest : Option (List Char)) : ImageReference where
  registry := String.ofList (locate (pieces path)).1
  repository := String.ofList (List.intercalate ['/'] (locate (pieces path)).2)
  tag := (tag.map String.ofList).or (if digest = none then some defaultTag else none)
  digest := digest.map String.ofList

theorem parseChars_eq_ok_iff {cs : List Char} : parseChars cs = .ok r ↔
    ∃ name path tag digest, splitDigest cs = .ok (name, digest) ∧ splitTag name = .ok (path, tag) ∧
      (∀ part ∈ (locate (pieces path)).2, isComponent part = true) ∧
      r = assemble path tag digest := by
  have hfind : ∀ parts : List (List Char),
      parts.find? (!isComponent ·) = none ↔ ∀ part ∈ parts, isComponent part = true := by
    simp [List.find?_eq_none]
  constructor
  · intro h
    rw [parseChars] at h
    cases hdigest : splitDigest cs with
    | error e => rw [hdigest] at h; exact nomatch h
    | ok v =>
      obtain ⟨name, digest⟩ := v
      rw [hdigest] at h
      cases hname : splitTag name with
      | error e => simp [bind, Except.bind, hname] at h
      | ok v =>
        obtain ⟨path, tag⟩ := v
        simp only [bind, Except.bind, hname] at h
        cases hparts : (locate (pieces path)).2.find? (!isComponent ·) with
        | some part => simp [hparts] at h
        | none =>
          refine ⟨name, path, tag, digest, rfl, hname, (hfind _).1 hparts, ?_⟩
          simp only [hparts] at h
          rw [← Except.ok.inj h, assemble]
          cases tag <;> cases digest <;> rfl
  · rintro ⟨name, path, tag, digest, hdigest, hname, hparts, rfl⟩
    rw [parseChars, hdigest]
    simp only [bind, Except.bind, hname, (hfind _).2 hparts]
    cases tag <;> cases digest <;> rfl

theorem names_assemble {path : List Char} {tag digest : Option (List Char)} :
    Form.Names path (assemble path tag digest) where
  qualified first rest hpath hfirst hregistry := by
    obtain ⟨first', rest', hpath', hfirst', -, hlocate⟩ | ⟨hno, -⟩ := locate_pieces path
    · obtain ⟨rfl, rfl⟩ := append_cons_inj hfirst hfirst' (hpath.symm.trans hpath')
      rw [assemble, hlocate]
      simp [intercalate_pieces]
    · exact absurd hregistry (hno first rest hpath hfirst)
  unqualified hno := by
    obtain ⟨first, rest, hpath, hfirst, hregistry, -⟩ | ⟨-, hlocate⟩ := locate_pieces path
    · exact absurd hregistry (hno first rest hpath hfirst)
    · rw [assemble, hlocate]
      refine ⟨String.ofList_toList, ?_⟩
      rw [String.toList_ofList]
      dsimp only
      split_ifs
      · exact intercalate_pieces path
      · exact intercalate_library path

theorem Form.reads_assemble (f : Form) : f.Reads (assemble f.path f.tag f.digest) :=
  ⟨names_assemble, rfl, rfl⟩

/-- A path names one place. -/
theorem Form.Names.unique {path : List Char} {r' : ImageReference} (h : Form.Names path r)
    (h' : Form.Names path r') : r.registry = r'.registry ∧ r.repository = r'.repository := by
  obtain ⟨first, rest, hpath, hfirst, hregistry, -⟩ | ⟨hno, -⟩ := locate_pieces path
  · obtain ⟨hr, hp⟩ := h.qualified first rest hpath hfirst hregistry
    obtain ⟨hr', hp'⟩ := h'.qualified first rest hpath hfirst hregistry
    exact ⟨String.toList_inj.1 (hr.trans hr'.symm), String.toList_inj.1 (hp.trans hp'.symm)⟩
  · obtain ⟨hr, hp⟩ := h.unqualified hno
    obtain ⟨hr', hp'⟩ := h'.unqualified hno
    exact ⟨hr.trans hr'.symm, String.toList_inj.1 (hp.trans hp'.symm)⟩

/-- A form stands for one reference. -/
theorem Form.Reads.unique {r' : ImageReference} (h : f.Reads r) (h' : f.Reads r') : r = r' := by
  have hplace := h.toNames.unique h'.toNames
  obtain ⟨registry, repository, tag, digest⟩ := r
  obtain ⟨registry', repository', tag', digest'⟩ := r'
  obtain ⟨rfl, rfl⟩ := hplace
  obtain rfl : tag = tag' := h.tag.trans h'.tag.symm
  obtain rfl : digest = digest' := h.digest.trans h'.digest.symm
  rfl

theorem parse_eq_ok_iff :
    parse s = .ok r ↔ Plain s.toList ∧ parseChars s.toList = .ok r := by
  have hany : s.toList.any Blank.isBlank = false ↔ Plain s.toList := by
    simp [Plain]
  rw [parse]
  constructor
  · intro h
    split_ifs at h with hempty hblank
    exact ⟨hany.1 (by simpa using hblank), h⟩
  · rintro ⟨hplain, h⟩
    have hstrip : Blank.strip s.toList = s.toList :=
      Blank.trim_eq_self (fun c hc => hplain c (List.mem_of_mem_head? hc))
        fun c hc => hplain c (List.mem_of_mem_getLast? hc)
    have hne : s.toList ≠ [] := fun hnil => by
      rw [hnil] at h
      exact nomatch h
    rw [hstrip, if_neg (by simpa using hne), if_neg (by rw [hany.2 hplain]; decide), h]

end Reading

/-! ## The grammar -/

namespace Form

variable {f : Form}

theorem slash_notMem_of_mem_parts : ∀ part ∈ f.parts, '/' ∉ part := by
  intro part hpart
  obtain hregistry | hcomponent := List.mem_append.1 hpart
  · exact f.slash_notMem part (Option.mem_toList.1 hregistry)
  · exact (notMem_of_isComponent (isComponent_iff.2 (f.component_mem part hcomponent))).1

theorem pieces_path : pieces f.path = f.parts :=
  pieces_intercalate (by simp [parts, f.components_ne_nil]) slash_notMem_of_mem_parts

theorem path_of_registry {registry : List Char} (h : f.registry = some registry) :
    f.path = registry ++ '/' :: List.intercalate ['/'] f.components := by
  rw [path, parts, h, Option.toList_some, List.singleton_append,
    List.intercalate_cons_of_ne_nil f.components_ne_nil, List.append_assoc, List.singleton_append]

/-- Components hold neither the mark of a tag nor that of a digest. -/
theorem notMem_intercalate_components :
    ':' ∉ List.intercalate ['/'] f.components ∧ '@' ∉ List.intercalate ['/'] f.components := by
  have hcomponent : ∀ part ∈ f.components, ':' ∉ part ∧ '@' ∉ part := fun part hpart =>
    (notMem_of_isComponent (isComponent_iff.2 (f.component_mem part hpart))).2
  constructor <;> intro h <;> obtain hslash | ⟨part, hpart, hmem⟩ := Blank.of_mem_intercalate h
  · exact absurd hslash (by decide)
  · exact (hcomponent part hpart).1 hmem
  · exact absurd hslash (by decide)
  · exact (hcomponent part hpart).2 hmem

/-- A colon in the path belongs to the registry, which a slash follows. -/
theorem slash_mem_of_path_eq {before after : List Char} (h : f.path = before ++ ':' :: after) :
    '/' ∈ after := by
  have hcolon := f.notMem_intercalate_components.1
  cases hregistry : f.registry with
  | none =>
    rw [path, parts, hregistry, Option.toList_none, List.nil_append] at h
    simp [h] at hcolon
  | some registry =>
    rw [path_of_registry hregistry] at h
    obtain ⟨between, -, hrest⟩ | ⟨between, -, hrest⟩ := List.append_eq_append_iff.1 h
    · have hmem : ':' ∈ '/' :: List.intercalate ['/'] f.components := by simp [hrest]
      simp [hcolon] at hmem
    · have hmem : '/' ∈ ':' :: after := by simp [hrest]
      simpa using hmem

theorem at_notMem_path (h : f.digest = none) : '@' ∉ f.path ++ marked ':' f.tag := by
  have htag : '@' ∉ marked ':' f.tag := by
    cases htag : f.tag with
    | none => simp
    | some t => simpa using (notMem_of_isTag (isTag_iff.2 (f.tag_mem t htag))).2.2
  have hpath : '@' ∉ f.path := by
    have hcomponents := f.notMem_intercalate_components.2
    cases hregistry : f.registry with
    | none => simpa [path, parts, hregistry] using hcomponents
    | some registry =>
      have hat : '@' ∉ registry := fun hat => f.at_notMem registry hregistry hat h
      simp [path_of_registry hregistry, hat, hcomponents]
  simp [hpath, htag]

/-- What is left of the parts behind the registry are components. -/
theorem isComponent_of_mem_locate :
    ∀ part ∈ (locate (pieces f.path)).2, isComponent part = true := by
  have hcomponent : ∀ part ∈ f.components, isComponent part = true := fun part hpart =>
    isComponent_iff.2 (f.component_mem part hpart)
  obtain ⟨first, rest, hpath, hfirst, hregistry, hlocate⟩ | ⟨hno, hlocate⟩ := locate_pieces f.path
  · have hparts : f.parts = first :: pieces rest := by
      rw [← pieces_path, hpath, pieces_append_cons hfirst]
    rw [hlocate]
    intro part hpart
    -- A first part with a dot may be a component of the form; what follows it are others.
    cases h : f.registry with
    | none => exact hcomponent part (by rw [parts, h] at hparts; simp_all)
    | some registry => exact hcomponent part (by rw [parts, h] at hparts; simp_all)
  · have hnone : f.registry = none := by
      by_contra hsome
      obtain ⟨registry, hregistry⟩ := Option.ne_none_iff_exists'.1 hsome
      exact hno registry _ (path_of_registry hregistry) (f.slash_notMem registry hregistry)
        (f.isRegistry registry hregistry)
    have hparts : pieces f.path = f.components := by rw [pieces_path, parts, hnone]; rfl
    rw [hlocate]
    by_cases hslash : '/' ∈ f.path
    · simpa [hslash, hparts] using hcomponent
    · rw [pieces_eq_singleton hslash] at hparts
      rw [← hparts, List.forall_mem_singleton] at hcomponent
      rw [if_neg hslash]
      exact List.forall_mem_cons.2 ⟨by decide, List.forall_mem_singleton.2 hcomponent⟩

end Form

section Grammar

variable {s : String} {r : ImageReference} {f : Form}

/-- The text of a form is read as the form says. -/
theorem exists_parse_of_text (hplain : Plain s.toList) (h : f.text = s.toList) :
    ∃ r, parse s = .ok r ∧ f.Reads r := by
  refine ⟨assemble f.path f.tag f.digest, ?_, f.reads_assemble⟩
  refine parse_eq_ok_iff.2 ⟨hplain, parseChars_eq_ok_iff.2
    ⟨f.path ++ marked ':' f.tag, f.path, f.tag, f.digest, ?_, ?_, f.isComponent_of_mem_locate, rfl⟩⟩
  · exact splitDigest_eq_ok_iff.2
      ⟨h.symm, fun d hd => isDigest_iff.2 (f.digest_mem d hd), f.at_notMem_path⟩
  · exact splitTag_eq_ok_iff.2 ⟨rfl, fun t ht => isTag_iff.2 (f.tag_mem t ht),
      fun _ before after => f.slash_mem_of_path_eq⟩

/-- What is read is the text of a form. -/
theorem exists_text_of_parse (h : parse s = .ok r) :
    Plain s.toList ∧ ∃ f : Form, f.text = s.toList := by
  obtain ⟨hplain, h⟩ := parse_eq_ok_iff.1 h
  refine ⟨hplain, ?_⟩
  obtain ⟨name, path, tag, digest, hdigest, htag, hparts, -⟩ := parseChars_eq_ok_iff.1 h
  obtain ⟨htext, hdigests, hat⟩ := splitDigest_eq_ok_iff.1 hdigest
  obtain ⟨rfl, htags, -⟩ := splitTag_eq_ok_iff.1 htag
  obtain ⟨first, rest, rfl, hfirst, hregistry, hlocate⟩ | ⟨-, hlocate⟩ := locate_pieces path
  · rw [hlocate] at hparts
    refine ⟨{
      registry := some first, components := pieces rest, tag, digest
      components_ne_nil := Blank.splitOn_ne_nil rest
      component_mem := fun part hpart => isComponent_iff.1 (hparts part hpart)
      tag_mem := fun t ht => isTag_iff.1 (htags t ht)
      digest_mem := fun d hd => isDigest_iff.1 (hdigests d hd)
      registry_ne_nil := by simpa using hregistry.ne_nil
      slash_notMem := by simpa using hfirst
      isRegistry := by simpa using hregistry
      at_notMem := by
        rintro _ ⟨rfl⟩ hmem hnone
        exact hat hnone (by simp [hmem]) }, ?_⟩
    rw [Form.text, Form.path_of_registry rfl, intercalate_pieces, htext]
  · rw [hlocate] at hparts
    refine ⟨{
      registry := none, components := pieces path, tag, digest
      components_ne_nil := Blank.splitOn_ne_nil path
      component_mem := ?_
      tag_mem := fun t ht => isTag_iff.1 (htags t ht)
      digest_mem := fun d hd => isDigest_iff.1 (hdigests d hd)
      registry_ne_nil := by simp
      slash_notMem := by simp
      isRegistry := by simp
      at_notMem := by simp }, ?_⟩
    · intro part hpart
      refine isComponent_iff.1 (hparts part ?_)
      by_cases hslash : '/' ∈ path
      · simpa [hslash] using hpart
      · rw [pieces_eq_singleton hslash] at hpart
        simp [hslash, List.mem_singleton.1 hpart]
    · rw [Form.text, Form.path, Form.parts, Option.toList_none, List.nil_append,
        intercalate_pieces, htext]

/-- The text of a reference does not start with a slash. -/
theorem Form.head?_text_ne (f : Form) : f.text.head? ≠ some '/' := by
  have hne : f.parts ≠ [] := by simp [parts, f.components_ne_nil]
  obtain ⟨part, others, hparts⟩ := List.exists_cons_of_ne_nil hne
  have hmem : part ∈ f.parts := hparts ▸ List.mem_cons_self
  have hpart : part ≠ [] := by
    rintro rfl
    obtain hregistry | hcomponent := List.mem_append.1 hmem
    · exact f.registry_ne_nil [] (Option.mem_toList.1 hregistry) rfl
    · exact absurd (isComponent_iff.2 (f.component_mem [] hcomponent)) (by decide)
  obtain ⟨c, cs, rfl⟩ := List.exists_cons_of_ne_nil hpart
  have hc : c ≠ '/' := by
    rintro rfl
    exact slash_notMem_of_mem_parts _ hmem List.mem_cons_self
  have hhead : f.text.head? = some c := by
    rw [Form.text, Form.path, hparts]
    cases others <;> rfl
  rw [hhead]
  exact fun h => hc (Option.some.inj h)

/-- What is read is exactly what the grammar writes, and it is read as the grammar says, in
whichever way it is written. -/
theorem parse_grammar (s : String) :
    ((∃ r, parse s = .ok r) ↔ Plain s.toList ∧ ∃ f : Form, f.text = s.toList) ∧
    (∀ r, parse s = .ok r → ∀ f : Form, f.text = s.toList → f.Reads r) ∧
    ((∃ e, parse s = .error e) ↔ ¬ (Plain s.toList ∧ ∃ f : Form, f.text = s.toList)) := by
  have hiff : (∃ r, parse s = .ok r) ↔ Plain s.toList ∧ ∃ f : Form, f.text = s.toList := by
    constructor
    · rintro ⟨r, h⟩
      exact exists_text_of_parse h
    · rintro ⟨hplain, f, hf⟩
      obtain ⟨r, h, -⟩ := exists_parse_of_text hplain hf
      exact ⟨r, h⟩
  refine ⟨hiff, fun r h f hf => ?_, ?_⟩
  · obtain ⟨r', h', hreads⟩ := exists_parse_of_text (exists_text_of_parse h).1 hf
    rwa [Except.ok.inj (h.symm.trans h')]
  · rw [← hiff]
    cases parse s with
    | ok r => simp
    | error e => simp

end Grammar

end ImageReference
end ContainerDocs

import ContainerDocs.Config.Reader
import Mathlib.Data.List.Forall2

/-!
# Configurations seen from a directory

A configuration in a file has its relative paths seen from the directory of the file. Everything
else stays, an empty path included, and with all paths absolute there is nothing left to be moved.
The template of a section is chosen by what is filled in, which moving a path does not change, so it
does not matter whether the template is chosen before or after the paths are moved.

## Main definitions

* `Config.PathMoved`, `Config.FilledMoved` — a path, and one that may be missing, and where it is
  after the move.
* `Config.Moved` — a configuration before and after the move of its paths, part by part.

## Main statements

* `Path.isAbsolute_normalize` — points do not lead out of the root.
* `Config.moved_anchored` — what anchoring does to each part.
* `Config.templateFor_anchored` — the template of a section is moved with it.
* `Config.anchored_anchored` — a configuration is moved once.
* `Config.parse_anchored` — the same text read with and without a directory.
-/

namespace ContainerDocs

namespace Path

variable {directory p : String}

theorem isAbsolute_iff : isAbsolute p = true ↔ ∃ rest, p.toList = '/' :: rest := by
  rw [isAbsolute, beq_iff_eq, List.head?_eq_some_iff]

theorem isAbsolute_append (h : isAbsolute p = true) (q : String) : isAbsolute (p ++ q) = true := by
  obtain ⟨rest, hp⟩ := isAbsolute_iff.1 h
  exact isAbsolute_iff.2 ⟨rest ++ q.toList, by rw [String.toList_append, hp]; rfl⟩

theorem isAbsolute_join (h : isAbsolute directory = true) (p : String) :
    isAbsolute (join directory p) = true := by
  rw [join]
  split_ifs with hp
  · exact hp
  · exact isAbsolute_append h p
  · exact isAbsolute_append (isAbsolute_append h "/") p

theorem isAbsolute_root (h : isAbsolute p = true) : isAbsolute (root p) = true := by
  obtain ⟨rest, hp⟩ := isAbsolute_iff.1 h
  rw [root, hp]
  split
  · rfl
  · rfl
  · rfl
  next hnone => exact absurd rfl (hnone rest)

/-- An absolute path stays absolute without its points: they do not lead out of the root. -/
theorem isAbsolute_normalize (h : isAbsolute p = true) : isAbsolute (normalize p) = true := by
  have hstart := isAbsolute_append (isAbsolute_root h)
    ("/".intercalate (collapse (!(root p).isEmpty) [] (components p)))
  rw [normalize]
  split_ifs with hempty
  · rw [String.isEmpty_iff] at hempty
    rw [hempty] at hstart
    exact absurd hstart (by decide)
  · exact hstart

theorem ne_empty_of_isAbsolute (h : isAbsolute p = true) : p ≠ "" := by
  rintro rfl
  exact absurd h (by decide)

end Path

namespace Config

open ContainerDocs.Path

variable {directory p : String}

/-! ## Moved paths -/

/-- A path and where it is after the move: an absolute path is where it was, and a relative one is
seen from the directory. -/
structure PathMoved (directory p q : String) : Prop where
  absolute : isAbsolute q = true
  kept : isAbsolute p = true → q = p
  seen : isAbsolute p = false → q = normalize (join directory p)

/-- A path that may be missing or empty, before and after the move. -/
inductive FilledMoved (directory : String) : Option String → Option String → Prop
  | missing : FilledMoved directory none none
  | empty : FilledMoved directory (some "") (some "")
  | filled {p q : String} (hp : p ≠ "") (h : PathMoved directory p q) :
    FilledMoved directory (some p) (some q)

/-- A choice of a template before and after the move. -/
structure TemplateMoved (directory : String) (t t' : Selection) : Prop where
  name : t'.name = t.name
  path : FilledMoved directory t.path t'.path

/-- A section before and after the move. -/
structure SectionMoved (directory : String) (s s' : Section) : Prop where
  type : s'.type = s.type
  marker : s'.marker = s.marker
  source : FilledMoved directory s.source s'.source
  tag : s'.tag = s.tag
  images : s'.images = s.images
  template : Option.Rel (TemplateMoved directory) s.template s'.template

structure Moved (directory : String) (c c' : Config) : Prop where
  output : PathMoved directory c.output c'.output
  badgeUrl : c'.badgeUrl = c.badgeUrl
  template : Option.Rel (TemplateMoved directory) c.template c'.template
  timeouts : c'.timeouts = c.timeouts
  sections : List.Forall₂ (SectionMoved directory) c.sections c'.sections

theorem anchor_of_isAbsolute (h : isAbsolute p = true) : anchor directory p = p := if_pos h

theorem pathMoved_anchor (h : isAbsolute directory = true) (p : String) :
    PathMoved directory p (anchor directory p) := by
  by_cases hp : isAbsolute p = true
  · rw [anchor_of_isAbsolute hp]
    exact ⟨hp, fun _ => rfl, fun hrelative => absurd (hp.symm.trans hrelative) (by decide)⟩
  · have hanchor : anchor directory p = normalize (join directory p) := if_neg hp
    rw [hanchor]
    exact ⟨isAbsolute_normalize (isAbsolute_join h p), fun habsolute => absurd habsolute hp,
      fun _ => rfl⟩

theorem filledMoved_anchorFilled (h : isAbsolute directory = true) (p : Option String) :
    FilledMoved directory p (anchorFilled directory p) := by
  cases p with
  | none => exact .missing
  | some p =>
    by_cases hp : p = ""
    · rw [hp]
      exact .empty
    · have hsome : anchorFilled directory (some p) = some (anchor directory p) := by
        simp [anchorFilled, hp]
      rw [hsome]
      exact .filled hp (pathMoved_anchor h p)

theorem templateMoved_anchorTemplate (h : isAbsolute directory = true) (t : Selection) :
    TemplateMoved directory t (anchorTemplate directory t) :=
  ⟨rfl, filledMoved_anchorFilled h t.path⟩

theorem rel_map_anchorTemplate (h : isAbsolute directory = true) (t : Option Selection) :
    Option.Rel (TemplateMoved directory) t (t.map (anchorTemplate directory)) := by
  cases t with
  | none => exact .none
  | some t => exact .some (templateMoved_anchorTemplate h t)

theorem sectionMoved_anchored (h : isAbsolute directory = true) (s : Section) :
    SectionMoved directory s (s.anchored directory) where
  type := rfl
  marker := rfl
  source := filledMoved_anchorFilled h s.source
  tag := rfl
  images := rfl
  template := rel_map_anchorTemplate h s.template

/-- Anchoring moves each path and nothing else. -/
theorem moved_anchored (h : isAbsolute directory = true) (c : Config) :
    Moved directory c (c.anchored directory) where
  output := pathMoved_anchor h c.output
  badgeUrl := rfl
  template := rel_map_anchorTemplate h c.template
  timeouts := rfl
  sections := List.forall₂_map_right_iff.2
    (List.forall₂_same.2 fun s _ => sectionMoved_anchored h s)

/-! ## What is filled in -/

/-- Anchoring fills no path in and takes none away. -/
theorem filled_anchorFilled (h : isAbsolute directory = true) (p : Option String) :
    Selection.filled (anchorFilled directory p) =
      (Selection.filled p).map (anchor directory) := by
  cases p with
  | none => rfl
  | some p =>
    by_cases hp : p = ""
    · rw [hp]
      rfl
    · have hmoved := ne_empty_of_isAbsolute (pathMoved_anchor h p).absolute
      simp [anchorFilled, Selection.filled, Option.filter, hp, hmoved]

/-- The template of a section, chosen after the move, is the moved one that is chosen before it. -/
theorem templateFor_anchored (h : isAbsolute directory = true) (c : Config) (s : Section) :
    (c.anchored directory).templateFor (s.anchored directory) =
      (c.templateFor s).map (anchorTemplate directory) := by
  have hglobal : (c.anchored directory).template = c.template.map (anchorTemplate directory) := rfl
  have hown : (s.anchored directory).template = s.template.map (anchorTemplate directory) := rfl
  rw [templateFor, templateFor, hown, hglobal]
  cases s.template with
  | none => rfl
  | some t =>
    have hfile : ((anchorTemplate directory t).file?).isSome = t.file?.isSome := by
      rw [Selection.file?, anchorTemplate, filled_anchorFilled h, Option.isSome_map]
      rfl
    have hname : (anchorTemplate directory t).name = t.name := rfl
    rw [Option.map_some]
    dsimp only
    rw [hfile, hname]
    split_ifs <;> rfl

/-- The Dockerfile of a moved section is given by an absolute path, from whatever absolute directory
a missing one is seen. -/
theorem isAbsolute_sourceFor_anchored (h : isAbsolute directory = true) (s : Section)
    {base : String} (hbase : isAbsolute base = true) :
    isAbsolute ((s.anchored directory).sourceFor base) = true := by
  have hsource : (s.anchored directory).source = anchorFilled directory s.source := rfl
  rw [Section.sourceFor, hsource, filled_anchorFilled h]
  cases Selection.filled s.source with
  | none => exact isAbsolute_join hbase defaultSource
  | some p => exact (pathMoved_anchor h p).absolute

/-! ## Moving twice -/

section Twice

variable (h : isAbsolute directory = true) (base : String)

include h

theorem anchorFilled_anchorFilled (p : Option String) :
    anchorFilled base (anchorFilled directory p) = anchorFilled directory p := by
  have hmoved := filledMoved_anchorFilled h p
  generalize anchorFilled directory p = q at hmoved
  cases hmoved with
  | missing => rfl
  | empty => rfl
  | filled _ hq => simp [anchorFilled, anchor_of_isAbsolute hq.absolute]

theorem anchorTemplate_anchorTemplate (t : Selection) :
    anchorTemplate base (anchorTemplate directory t) = anchorTemplate directory t := by
  rw [anchorTemplate, anchorTemplate, anchorFilled_anchorFilled h]

theorem map_anchorTemplate (t : Option Selection) :
    (t.map (anchorTemplate directory)).map (anchorTemplate base) =
      t.map (anchorTemplate directory) := by
  rw [Option.map_map]
  exact Option.map_congr fun t _ => anchorTemplate_anchorTemplate h base t

theorem section_anchored_anchored (s : Section) :
    (s.anchored directory).anchored base = s.anchored directory := by
  rw [Section.anchored, Section.anchored, anchorFilled_anchorFilled h, map_anchorTemplate h]

/-- A configuration whose paths have been moved is not moved by another directory. -/
theorem anchored_anchored (c : Config) :
    (c.anchored directory).anchored base = c.anchored directory := by
  have hsections : (c.sections.map (Section.anchored directory)).map (Section.anchored base) =
      c.sections.map (Section.anchored directory) := by
    rw [List.map_map]
    exact List.map_congr_left fun s _ => section_anchored_anchored h base s
  rw [anchored, anchored, anchor_of_isAbsolute (pathMoved_anchor h c.output).absolute,
    map_anchorTemplate h, hsections]

end Twice

/-! ## The same text read twice -/

/-- The directory does not count for what a text is read as. -/
theorem parse_eq_ok_iff {limits : Yaml.Limits} {text directory : String} {c : Config} :
    parse limits text directory = .ok c ↔
      ∃ d e, Yaml.read limits depth text = .ok e ∧ ofDatum e = .ok d ∧
        c = if directory.isEmpty then d else d.anchored directory := by
  rw [parse]
  cases Yaml.read limits depth text with
  | error f => cases f <;> simp
  | ok e =>
    simp only [Except.ok.injEq, exists_eq_left']
    cases ofDatum e with
    | error f => simp
    | ok d => simp only [Except.ok.injEq, exists_eq_left', eq_comm]

/-- Reading a configuration in a directory moves its paths into the directory. -/
theorem parse_eq_anchored {limits : Yaml.Limits} {text directory : String} {c : Config}
    (hc : parse limits text "" = .ok c) (hne : directory.isEmpty = false) :
    parse limits text directory = .ok (c.anchored directory) := by
  obtain ⟨d, e, hread, hdatum, hd⟩ := parse_eq_ok_iff.1 hc
  have hd : c = d := by simpa using hd
  exact parse_eq_ok_iff.2 ⟨d, e, hread, hdatum, by rw [hne, hd]; rfl⟩

/-- A text that is a configuration is one in every directory as well. Seen from an absolute one, its
paths are moved and nothing else: the template that is chosen for a section is moved with the
section, each Dockerfile is given by an absolute path, and no directory moves anything any more. -/
theorem parse_anchored {limits : Yaml.Limits} {text directory : String} {c : Config}
    (hc : parse limits text "" = .ok c) (h : isAbsolute directory = true) :
    ∃ c', parse limits text directory = .ok c' ∧ Moved directory c c' ∧
      c'.sections = c.sections.map (Section.anchored directory) ∧
      (∀ s : Section, c'.templateFor (s.anchored directory) =
        (c.templateFor s).map (anchorTemplate directory)) ∧
      (∀ (s : Section) (base : String), isAbsolute base = true →
        isAbsolute ((s.anchored directory).sourceFor base) = true) ∧
      ∀ base, c'.anchored base = c' := by
  have hne : directory.isEmpty = false := by simpa using ne_empty_of_isAbsolute h
  exact ⟨c.anchored directory, parse_eq_anchored hc hne, moved_anchored h c, rfl,
    templateFor_anchored h c, fun s _ hbase => isAbsolute_sourceFor_anchored h s hbase,
    fun base => anchored_anchored h base c⟩

/-- A configuration with paths of all kinds, seen from a directory. -/
theorem parse_anchored_of_mixed :
    let text := "output: ../out.md\ntemplate:\n  path: t//x.tmpl\nsections:\n" ++
      "- source: /d/Dockerfile\n  template:\n    name: html\n    path: \"\"\n" ++
      "- source: \"\"\n  template:\n    path: \"\"\n"
    let c : Config :=
      { output := "../out.md"
        template := some { path := some "t//x.tmpl" }
        sections := [{ source := some "/d/Dockerfile"
                       template := some { name := some "html", path := some "" } },
                     { source := some "", template := some { path := some "" } }] }
    let c' : Config :=
      { c with output := "/out.md", template := some { path := some "/w/t/x.tmpl" } }
    parse .usual text "" = .ok c ∧ Path.isAbsolute "/w" = true ∧ parse .usual text "/w" = .ok c' ∧
      c'.templateFor { template := some { path := some "" } } = c'.template ∧
      c'.anchored "/other" = c' := by
  intro text c c'
  have hc : parse .usual text "" = .ok c := by
    have hrun : (parse .usual text "").toOption = some c := by decide +kernel
    cases hparse : parse .usual text "" with
    | error e =>
      rw [hparse] at hrun
      cases hrun
    | ok d =>
      rw [hparse] at hrun
      exact congrArg Except.ok (Option.some.inj hrun)
  have hmoved : c.anchored "/w" = c' := by decide +kernel
  have hc' : parse .usual text "/w" = .ok c' := hmoved ▸ parse_eq_anchored hc (by decide)
  have h : Path.isAbsolute "/w" = true := by decide
  obtain ⟨d, hd, -, -, -, -, hagain⟩ := parse_anchored hc h
  cases hc'.symm.trans hd
  exact ⟨hc, h, hc', by decide +kernel, hagain "/other"⟩

end Config
end ContainerDocs

import ContainerDocs.Config.Basic
import ContainerDocs.Proofs.Output.Paths

/-!
# Files of several sections

The file of a section is called after its marker or, without one, after its number. Files of
different sections stand in one directory under different names, except that a marker may be spelled
like the name that another section gets from its number.

## Main definitions

* `OutputPath.labelOf` — what tells the file of a section from those of other ones.

## Main statements

* `Path.parent_join_parent` — a name in the directory of a path has that directory.
* `OutputPath.ofSection_eq_iff` — two sections have one file if format and label agree.
* `OutputPath.ofSection_apart` — which sections of a configuration have one file.
-/

namespace ContainerDocs

namespace Path

/-- The directory of a path has no slash at its end, unless it is nothing else. -/
theorem exists_slashes_of_parent {p : String} (h : (parent p).toList.getLast? = some '/') :
    ∃ n, (parent p).toList = List.replicate n '/' := by
  rw [parent, String.toList_ofList] at h ⊢
  generalize p.toList.reverse.dropWhile (· != '/') = head at h ⊢
  obtain ⟨n, hslashes⟩ := exists_slashes head
  cases hshort : head.dropWhile (· == '/') with
  | nil =>
    rw [hshort, List.append_nil] at hslashes
    exact ⟨n, by rw [if_pos List.isEmpty_nil, hslashes, List.reverse_replicate]⟩
  | cons c rest =>
    have hne : head.dropWhile (· == '/') ≠ [] := by simp [hshort]
    have hc : c ≠ '/' := by simpa [hshort] using List.head_dropWhile_not (· == '/') hne
    rw [hshort, if_neg (by simp), List.reverse_cons, List.getLast?_concat] at h
    exact absurd (Option.some.inj h) hc

/-- The last component of a path does not count for its directory. -/
theorem parent_of_append {p : String} {front name : List Char} (hp : p.toList = front ++ name)
    (hname : '/' ∉ name) (hfront : ∀ c ∈ front.getLast?, c = '/') :
    parent p = String.ofList (if (front.reverse.dropWhile (· == '/')).isEmpty then front.reverse
      else front.reverse.dropWhile (· == '/')).reverse := by
  have hall : ∀ c ∈ name.reverse, (c != '/') = true := by
    intro c hc
    rw [bne_iff_ne]
    rintro rfl
    exact hname (List.mem_reverse.1 hc)
  have hhead : p.toList.reverse.dropWhile (· != '/') = front.reverse := by
    rw [hp, List.reverse_append, List.dropWhile_append_of_pos hall]
    cases hchars : front.reverse with
    | nil => rfl
    | cons c rest =>
      have hc : c = '/' := hfront c (by rw [← List.head?_reverse, hchars]; rfl)
      rw [List.dropWhile_cons, if_neg (by simp [hc])]
  rw [parent, hhead]

theorem not_isAbsolute_of_slash_not_mem {name : String} (h : '/' ∉ name.toList) :
    isAbsolute name = false := by
  rw [isAbsolute]
  cases hchars : name.toList with
  | nil => rfl
  | cons c rest =>
    rw [hchars, List.mem_cons, not_or] at h
    simpa using Ne.symm h.1

/-- A name in the directory of a path has the directory of the path. -/
theorem parent_join_parent (p : String) {name : String} (hname : '/' ∉ name.toList) :
    parent (join (parent p) name) = parent p := by
  have hslashes : (parent p).toList.getLast? = some '/' →
      ∃ n, (parent p).toList = List.replicate n '/' := exists_slashes_of_parent
  rw [join, if_neg (by simp [not_isAbsolute_of_slash_not_mem hname])]
  generalize parent p = directory at hslashes ⊢
  by_cases hlast : directory.toList.getLast? = some '/'
  · -- The directory is the root.
    obtain ⟨n, hn⟩ := hslashes hlast
    have hshort : (List.replicate n '/').dropWhile (· == '/') = [] := by simp
    rw [if_pos (by simp [hlast]), parent_of_append String.toList_append hname
      fun c hc => by simpa [hlast, eq_comm] using hc, hn, List.reverse_replicate, hshort,
      if_pos List.isEmpty_nil, List.reverse_replicate, ← hn, String.ofList_toList]
  by_cases hempty : directory = ""
  · rw [if_pos (by simp [hempty]), parent_of_append String.toList_append hname (by simp [hempty]),
      hempty]
    rfl
  · have hjoined : (directory ++ "/" ++ name).toList =
        directory.toList ++ ['/'] ++ name.toList := by
      simp
    have hshort : (directory.toList ++ ['/']).reverse.dropWhile (· == '/') =
        directory.toList.reverse := by
      rw [List.reverse_append, List.reverse_singleton, List.singleton_append, List.dropWhile_cons,
        if_pos (by decide)]
      cases hchars : directory.toList.reverse with
      | nil => rfl
      | cons c rest =>
        have hc : c ≠ '/' := by
          rintro rfl
          exact hlast (by rw [← List.head?_reverse, hchars]; rfl)
        rw [List.dropWhile_cons, if_neg (by simpa using hc)]
    rw [if_neg (by simp [hempty, hlast]), parent_of_append hjoined hname (by simp), hshort,
      if_neg (by simpa using hempty), List.reverse_reverse, String.ofList_toList]

/-- Different names give different paths in a directory. -/
theorem join_inj {directory p q : String} (hp : isAbsolute p = false) (hq : isAbsolute q = false) :
    join directory p = join directory q ↔ p = q := by
  refine ⟨fun h => ?_, fun h => h ▸ rfl⟩
  rw [join, join, hp, hq, if_neg Bool.false_ne_true, if_neg Bool.false_ne_true] at h
  rw [← String.toList_inj]
  split_ifs at h
  · simpa [← String.toList_inj] using h
  · simpa [← String.toList_inj] using h

end Path

namespace OutputPath

open ContainerDocs.Path

variable {output marker marker' : String} {index index' : Nat} {format format' : ReportFormat}

/-- What tells the file of a section from the files of others: its marker or, without one, its
number. -/
def labelOf (marker : String) (index : Nat) : String :=
  if marker = "" then "section" ++ toString index else marker

theorem nameOfSection_eq_labelOf (output marker : String) (index : Nat) (format : ReportFormat) :
    nameOfSection output marker index format =
      (splitExtension (baseName output)).1 ++ ("-" ++ labelOf marker index) ++
        extension format := by
  rw [nameOfSection, labelOf]
  by_cases h : marker = ""
  · have hsection : "-section" = "-" ++ "section" := rfl
    rw [if_pos (by simp [h]), if_pos h, hsection]
    simp only [String.append_assoc]
  · rw [if_neg (by simp [h]), if_neg h]

/-- The last letter of a file tells its format. -/
theorem append_extension_inj {u v : List Char} :
    u ++ (extension format).toList = v ++ (extension format').toList ↔
      u = v ∧ format = format' := by
  constructor
  · intro h
    have hlast := congrArg List.getLast? h
    have hne : ∀ f : ReportFormat, (extension f).toList ≠ [] := by
      intro f
      cases f <;> decide
    rw [List.getLast?_append_of_ne_nil _ (hne _), List.getLast?_append_of_ne_nil _ (hne _)] at hlast
    have hformat : format = format' := by
      cases format <;> cases format' <;> first | rfl | exact absurd hlast (by decide)
    subst hformat
    exact ⟨List.append_cancel_right h, rfl⟩
  · rintro ⟨rfl, rfl⟩
    rfl

/-- Two sections have one file exactly if they have one format and one label. -/
theorem ofSection_eq_iff :
    ofSection output marker index format = ofSection output marker' index' format' ↔
      labelOf marker index = labelOf marker' index' ∧ format = format' := by
  rw [ofSection_eq, ofSection_eq, join_inj (isAbsolute_nameOfSection ..)
    (isAbsolute_nameOfSection ..), nameOfSection_eq_labelOf, nameOfSection_eq_labelOf,
    ← String.toList_inj]
  simp only [String.toList_append]
  rw [append_extension_inj, List.append_cancel_left_eq, List.append_cancel_left_eq,
    String.toList_inj]

theorem empty_ne_numbered {n : Nat} : "" ≠ "section" ++ toString n := by
  intro h
  have hlength := congrArg (fun s => s.toList.length) h
  simp only [String.toList_append, List.length_append] at hlength
  have hsection : "section".toList.length = 7 := rfl
  have hempty : "".toList.length = 0 := rfl
  omega

theorem numbered_ne {m n : Nat} (h : m ≠ n) :
    "section" ++ toString m ≠ "section" ++ toString n := by
  intro heq
  rw [← String.toList_inj, String.toList_append, String.toList_append,
    List.append_cancel_left_eq, String.toList_inj] at heq
  exact h (toString_injective heq)

/-- Two labels agree if the sections have the same marker or none and one number, or if a marker is
spelled like the label of a section without one. -/
theorem labelOf_eq_iff (hindex : index ≠ index') :
    labelOf marker index = labelOf marker' index' ↔
      (marker ≠ "" ∧ marker = marker') ∨ (marker = "" ∧ marker' = "section" ++ toString index) ∨
        (marker' = "" ∧ marker = "section" ++ toString index') := by
  rw [labelOf, labelOf]
  by_cases hmarker : marker = "" <;> by_cases hmarker' : marker' = ""
  · rw [if_pos hmarker, if_pos hmarker']
    refine iff_of_false (numbered_ne hindex) ?_
    rintro (⟨h, -⟩ | ⟨-, h⟩ | ⟨-, h⟩)
    · exact h hmarker
    · exact empty_ne_numbered (hmarker'.symm.trans h)
    · exact empty_ne_numbered (hmarker.symm.trans h)
  · rw [if_pos hmarker, if_neg hmarker', eq_comm]
    simp only [hmarker, hmarker', ne_eq, not_true_eq_false, false_and, true_and, or_false, false_or]
  · rw [if_neg hmarker, if_pos hmarker']
    simp only [hmarker, hmarker', ne_eq, not_false_eq_true, true_and, false_and, false_or]
  · rw [if_neg hmarker, if_neg hmarker']
    simp only [hmarker, hmarker', ne_eq, not_false_eq_true, true_and, false_and, or_false]

theorem slash_not_mem_nameOfSection (h : '/' ∉ marker.toList) :
    '/' ∉ (nameOfSection output marker index format).toList := by
  obtain ⟨suffix, hname, -, hsuffix⟩ := exists_toList_nameOfSection output marker index format
  rw [hname, List.mem_append, List.mem_cons, not_or, not_or]
  exact ⟨slash_not_mem_stem output, by decide, hsuffix h⟩

/-- The files of the sections of a configuration, whatever formats they have, stand in the directory
of the document. If no two sections have the same marker, they are different ones for different
sections, unless a section without a marker has the format of one whose marker is the word `section`
with the number of the first. -/
theorem ofSection_apart (c : Config) (format : Nat → ReportFormat)
    (hmarkers : c.sections.Pairwise fun s s' => s.marker ≠ "" → s.marker ≠ s'.marker)
    (hslash : ∀ s ∈ c.sections, '/' ∉ s.marker.toList) :
    (∀ i j s s', c.sections[i]? = some s → c.sections[j]? = some s' → i < j →
      (ofSection c.output s.marker i (format i) = ofSection c.output s'.marker j (format j) ↔
        ((s.marker = "" ∧ s'.marker = "section" ++ toString i) ∨
          (s'.marker = "" ∧ s.marker = "section" ++ toString j)) ∧ format i = format j)) ∧
    ∀ i s, c.sections[i]? = some s →
      parent (ofSection c.output s.marker i (format i)) = parent c.output := by
  constructor
  · intro i j s s' hs hs' hlt
    obtain ⟨hi, rfl⟩ := List.getElem?_eq_some_iff.1 hs
    obtain ⟨hj, rfl⟩ := List.getElem?_eq_some_iff.1 hs'
    have hne := List.pairwise_iff_getElem.1 hmarkers i j hi hj hlt
    rw [ofSection_eq_iff, labelOf_eq_iff hlt.ne, or_iff_right fun h => hne h.1 h.2]
  · intro i s hs
    rw [ofSection_eq]
    exact parent_join_parent _ (slash_not_mem_nameOfSection (hslash s (List.mem_of_getElem? hs)))

/-- A section without a marker keeps its file apart from that of a section whose marker is its label
in another format, and shares it with one whose marker is its label in its own format. -/
theorem ofSection_apart_of_labels :
    let c : Config := { output := "docs/README.md",
                        sections := [{}, { marker := "section0" }, { marker := "section3" }, {}] }
    (c.sections.Pairwise fun s s' => s.marker ≠ "" → s.marker ≠ s'.marker) ∧
    (∀ s ∈ c.sections, '/' ∉ s.marker.toList) ∧
    ofSection c.output "" 0 .html ≠ ofSection c.output "section0" 1 .json ∧
    ofSection c.output "section3" 2 .html = ofSection c.output "" 3 .html ∧
    parent (ofSection c.output "section0" 1 .json) = "docs" := by
  intro c
  have hmarkers : c.sections.Pairwise fun s s' => s.marker ≠ "" → s.marker ≠ s'.marker := by decide
  have hslash : ∀ s ∈ c.sections, '/' ∉ s.marker.toList := by decide
  obtain ⟨hapart, hparent⟩ :=
    ofSection_apart c (fun i => if i = 1 then .json else .html) hmarkers hslash
  refine ⟨hmarkers, hslash, fun h => ?_, ?_, ?_⟩
  · have hformat := ((hapart 0 1 {} { marker := "section0" } rfl rfl (by decide)).1 h).2
    exact absurd hformat (by decide)
  · exact (hapart 2 3 { marker := "section3" } {} rfl rfl (by decide)).2
      ⟨.inr ⟨rfl, by decide⟩, rfl⟩
  · exact (hparent 1 { marker := "section0" } rfl).trans (by decide)

/-- Distinct markers alone do not keep the files of sections apart: the first section here has no
marker and the second one has the label of the first as its marker. -/
theorem ofSection_not_apart :
    ¬ ∀ (c : Config) (format : Nat → ReportFormat),
      (c.sections.Pairwise fun s s' => s.marker ≠ "" → s.marker ≠ s'.marker) →
      (∀ s ∈ c.sections, '/' ∉ s.marker.toList) →
      ∀ i j s s', c.sections[i]? = some s → c.sections[j]? = some s' → i < j →
        isOwnFile (format i) = true → isOwnFile (format j) = true →
          ofSection c.output s.marker i (format i) ≠ ofSection c.output s'.marker j (format j) := by
  intro h
  refine h { sections := [{}, { marker := "section0" }] } (fun _ => .html) (by decide)
    (by decide) 0 1 {} { marker := "section0" } rfl rfl (by decide) rfl rfl ?_
  decide

end OutputPath
end ContainerDocs

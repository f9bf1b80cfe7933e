import ContainerDocs.Output.Section
import ContainerDocs.Proofs.System.Files
import Mathlib.Data.List.TakeWhile

/-!
# Where reports of their own are

The report of a section that is a file of its own stands in the directory of the document under
another name, unless the marker of the section has a slash in it. Its name ends with the extension
of its format.

## Main statements

* `Path.exists_of_splitExtension` — a path without its extension.
* `Path.exists_front_of_parent` — the directory of a path.
* `OutputPath.resolve_ofSection_ne` — the file of a section is not the document.
* `OutputPath.resolve_ofSection_ne_tmp` — what the file of a section is called.
-/

namespace ContainerDocs

namespace Path

/-! ## Parts of paths -/

theorem append_baseName (p : String) :
    (p.toList.reverse.dropWhile (· != '/')).reverse ++ (baseName p).toList = p.toList := by
  rw [baseName, String.toList_ofList, ← List.reverse_append, List.takeWhile_append_dropWhile,
    List.reverse_reverse]

theorem slash_not_mem_baseName (p : String) : '/' ∉ (baseName p).toList := by
  intro h
  rw [baseName, String.toList_ofList, List.mem_reverse] at h
  simpa using List.mem_takeWhile_imp h

/-- What comes after the last point of a name stands behind that point. -/
theorem take_append_point {name after : List Char}
    (hafter : (name.reverse.takeWhile (· != '.')).reverse = after)
    (hlength : after.length ≠ name.length) :
    name.take (name.length - after.length - 1) ++ '.' :: after = name := by
  have hsplit : name.reverse.takeWhile (· != '.') ++ name.reverse.dropWhile (· != '.') =
      name.reverse := List.takeWhile_append_dropWhile
  rw [List.reverse_eq_iff] at hafter
  rw [hafter] at hsplit
  cases hrest : name.reverse.dropWhile (· != '.') with
  | nil =>
    rw [hrest, List.append_nil, List.reverse_inj] at hsplit
    exact absurd (congrArg List.length hsplit) hlength
  | cons c front =>
    have hpoint : c = '.' := by
      have hne : name.reverse.dropWhile (· != '.') ≠ [] := by simp [hrest]
      simpa [hrest] using List.head_dropWhile_not (· != '.') hne
    have hname : front.reverse ++ '.' :: after = name := by
      rw [hrest, hpoint] at hsplit
      rw [← List.reverse_inj, ← hsplit]
      simp
    have hstem : name.length - after.length - 1 = front.reverse.length := by
      rw [← hname]
      simp
      omega
    rw [hstem]
    nth_rewrite 1 [← hname]
    rw [List.take_left, hname]

/-- What comes after the path without its extension is nothing or starts with a point. -/
theorem exists_of_splitExtension (p : String) :
    ∃ rest, p.toList = (splitExtension p).1.toList ++ rest ∧ rest.head? ≠ some '-' := by
  have hbase : (baseName p).toList.takeWhile (· == '.') ++
      (baseName p).toList.dropWhile (· == '.') = (baseName p).toList :=
    List.takeWhile_append_dropWhile
  rw [splitExtension]
  generalize (baseName p).toList.dropWhile (· == '.') = name at hbase ⊢
  generalize hafter : (name.reverse.takeWhile (· != '.')).reverse = after
  split_ifs with hlength
  · exact ⟨[], by simp, by simp⟩
  · refine ⟨'.' :: after, ?_, by simp⟩
    rw [String.toList_ofList, List.append_assoc, take_append_point hafter hlength,
      List.append_assoc, hbase]
    exact (append_baseName p).symm

/-- Slashes at the start of a list come before a list that does not start with one. -/
theorem exists_slashes (l : List Char) :
    ∃ n, l = List.replicate n '/' ++ l.dropWhile (· == '/') := by
  refine ⟨(l.takeWhile (· == '/')).length, ?_⟩
  have hall : l.takeWhile (· == '/') = List.replicate (l.takeWhile (· == '/')).length '/' :=
    List.eq_replicate_of_mem fun c hc => by simpa using List.mem_takeWhile_imp hc
  rw [← hall, List.takeWhile_append_dropWhile]

/-- A name in the directory of a path stands where the last component of the path does, except that
there may be more or fewer slashes in front of it. -/
theorem exists_front_of_parent (out : String) {name : String} (hname : isAbsolute name = false) :
    (out.toList = (baseName out).toList ∧ join (parent out) name = name) ∨
      ∃ front n k,
        out.toList = front ++ '/' :: (List.replicate n '/' ++ (baseName out).toList) ∧
        (join (parent out) name).toList =
          front ++ '/' :: (List.replicate k '/' ++ name.toList) := by
  have hout := append_baseName out
  rw [parent, join, if_neg (by simp [hname])]
  generalize hhead : out.toList.reverse.dropWhile (· != '/') = head at hout ⊢
  obtain ⟨n, hslashes⟩ := exists_slashes head
  cases hshort : head.dropWhile (· == '/') with
  | nil =>
    rw [hshort, List.append_nil] at hslashes
    subst hslashes
    cases n with
    | zero =>
      rw [List.replicate_zero, List.reverse_nil, List.nil_append] at hout
      exact .inl ⟨hout.symm, by simp⟩
    | succ n =>
      refine .inr ⟨[], n, n, ?_, ?_⟩
      · rw [← hout, List.reverse_replicate]
        rfl
      · have hlast : (List.replicate (n + 1) '/').getLast? = some '/' := by
          simp [List.getLast?_replicate]
        rw [if_pos (by simp [hlast]), if_pos List.isEmpty_nil, String.toList_append,
          String.toList_ofList, List.reverse_replicate]
        rfl
  | cons c rest =>
    have hc : c ≠ '/' := by
      have hne : head.dropWhile (· == '/') ≠ [] := by simp [hshort]
      simpa [hshort] using List.head_dropWhile_not (· == '/') hne
    rw [hshort] at hslashes
    cases n with
    | zero =>
      -- What is left in front of the name starts with a slash, seen from its end.
      have hne : out.toList.reverse.dropWhile (· != '/') ≠ [] := by simp [hhead, hslashes]
      have hslash : c = '/' := by
        simpa [hhead, hslashes] using List.head_dropWhile_not (· != '/') hne
      exact absurd hslash hc
    | succ n =>
      refine .inr ⟨(c :: rest).reverse, n, 0, ?_, ?_⟩
      · rw [← hout, hslashes, List.reverse_append, List.reverse_replicate, List.append_assoc]
        rfl
      · rw [if_neg (by simp [hc]), if_neg (by simp), String.toList_append,
          String.toList_append, String.toList_ofList, List.append_assoc]
        rfl

theorem pieces_slashes (front : List Char) (n : Nat) {name : List Char} (h : '/' ∉ name) :
    pieces (front ++ '/' :: (List.replicate n '/' ++ name)) =
      pieces front ++ (List.replicate n [] ++ [name]) := by
  rw [pieces_append_slash]
  congr 1
  induction n with
  | zero => exact pieces_of_not_mem h
  | succ n ih =>
    rw [List.replicate_succ, List.cons_append, pieces, if_pos rfl, ih]
    rfl

/-- What is added to a path without slashes is added to its last piece. -/
theorem exists_pieces_append (u : List Char) {v : List Char} (h : '/' ∉ v) :
    ∃ front last, pieces (u ++ v) = front ++ [last ++ v] := by
  induction u with
  | nil => exact ⟨[], [], pieces_of_not_mem h⟩
  | cons c u ih =>
    obtain ⟨front, last, hu⟩ := ih
    rw [List.cons_append, pieces, hu]
    split
    · exact ⟨[] :: front, last, rfl⟩
    · cases front with
      | nil => exact ⟨[], c :: last, rfl⟩
      | cons piece front => exact ⟨(c :: piece) :: front, last, rfl⟩

end Path

namespace Files

variable {fs : Files} {directory here p : Place} {path : String}

theorem exists_walk_of_append {ps qs : List String} (h : fs.walk path here (ps ++ qs) = .ok p) :
    ∃ d, fs.walk path here ps = .ok d ∧ fs.walk path d qs = .ok p := by
  induction ps generalizing here with
  | nil => exact ⟨here, rfl, h⟩
  | cons piece ps ih =>
    rw [List.cons_append, walk] at h
    rw [walk]
    split at h
    next => cases h
    next => cases h
    next hhere =>
      split_ifs at h ⊢ with hsame hup
      · exact ih h
      · exact ih h
      · exact ih h

theorem walk_blanks {n : Nat} {name : String}
    (h : fs.walk path here (List.replicate n "" ++ [name]) = .ok p) :
    fs.walk path here [name] = .ok p := by
  induction n with
  | zero => exact h
  | succ n ih =>
    rw [List.replicate_succ, List.cons_append, walk] at h
    split at h
    next => cases h
    next => cases h
    next => exact ih (by simpa using h)

/-- A name leads from a directory to itself, to what is above it or into it. -/
theorem of_walk_name {name : String} (h : fs.walk path here [name] = .ok p) :
    p = here ∨ p = here.dropLast ∨ p = here ++ [name] := by
  rw [walk] at h
  split at h
  next => cases h
  next => cases h
  next =>
    split_ifs at h <;> cases h
    · exact .inl rfl
    · exact .inr (.inl rfl)
    · exact .inr (.inr rfl)

theorem walk_long_name {name : String} (hname : 2 < name.toList.length)
    (h : fs.walk path here [name] = .ok p) : p = here ++ [name] := by
  have hne : ∀ short : String, short.toList.length ≤ 2 → name ≠ short := by
    rintro short hshort rfl
    omega
  rw [walk] at h
  split at h
  next => cases h
  next => cases h
  next =>
    rw [if_neg (not_or.2 ⟨hne _ (by decide), hne _ (by decide)⟩), if_neg (hne _ (by decide))] at h
    cases h
    rfl

/-- A path that is a name is looked up in the directory it is seen from. -/
theorem walk_of_resolve_name (hpath : '/' ∉ path.toList) (h : fs.resolve directory path = .ok p) :
    fs.walk "" directory [path] = .ok p := by
  have habsolute : ¬ Path.isAbsolute path = true := by
    rw [Path.isAbsolute]
    cases hchars : path.toList with
    | nil => simp
    | cons c rest =>
      rw [hchars, List.mem_cons, not_or] at hpath
      simpa using Ne.symm hpath.1
  rw [resolve, if_neg habsolute, Path.components, Path.pieces_of_not_mem hpath] at h
  split_ifs at h
  simp only [List.map_cons, List.map_nil, String.ofList_toList] at h
  exact walk_of_directories (fun _ h => h) h

/-- A path leads to where its last component leads from the directory that the front of the path
leads to. -/
theorem exists_walk_of_resolve {front name : List Char} {n : Nat}
    (hpath : path.toList = front ++ '/' :: (List.replicate n '/' ++ name)) (hname : '/' ∉ name)
    (h : fs.resolve directory path = .ok p) :
    ∃ d, fs.walk "" (if front.head?.getD '/' = '/' then [] else directory)
        ((Path.pieces front).map String.ofList) = .ok d ∧
      fs.walk "" d [String.ofList name] = .ok p := by
  have habsolute : Path.isAbsolute path = true ↔ front.head?.getD '/' = '/' := by
    rw [Path.isAbsolute, hpath]
    cases front <;> simp
  have hcomponents : Path.components path = (Path.pieces front).map String.ofList ++
      (List.replicate n "" ++ [String.ofList name]) := by
    rw [Path.components, hpath, Path.pieces_slashes front n hname]
    simp
  rw [resolve, if_neg (by simp [← String.toList_inj, hpath]), hcomponents] at h
  simp only [habsolute] at h
  obtain ⟨d, hd, hp⟩ := exists_walk_of_append (walk_of_directories (fun _ h => h) h)
  exact ⟨d, hd, walk_blanks hp⟩

end Files

namespace OutputPath

open ContainerDocs.Path

variable {fs : Files} {directory p : Place} {output marker : String} {index : Nat}
  {format : ReportFormat}

def nameOfSection (output marker : String) (index : Nat) (format : ReportFormat) : String :=
  (splitExtension (baseName output)).1 ++
    (if marker.isEmpty then "-section" ++ toString index else "-" ++ marker) ++ extension format

theorem ofSection_eq (output marker : String) (index : Nat) (format : ReportFormat) :
    ofSection output marker index format =
      join (parent output) (nameOfSection output marker index format) := rfl

/-- The name has a stroke behind the stem of the document's name, and then something. -/
theorem exists_toList_nameOfSection (output marker : String) (index : Nat) (format : ReportFormat) :
    ∃ suffix, (nameOfSection output marker index format).toList =
        (splitExtension (baseName output)).1.toList ++ '-' :: suffix ∧ 2 < suffix.length ∧
      ('/' ∉ marker.toList → '/' ∉ suffix) := by
  have hextension : 2 < (extension format).toList.length ∧ '/' ∉ (extension format).toList := by
    cases format <;> decide
  obtain ⟨hlength, hslash⟩ := hextension
  rw [nameOfSection, String.toList_append, String.toList_append, List.append_assoc]
  by_cases hmarker : marker.isEmpty = true
  · have hsection : "-section".toList = '-' :: "section".toList := rfl
    rw [if_pos hmarker, String.toList_append, hsection]
    refine ⟨"section".toList ++ (toString index).toList ++ (extension format).toList, by simp,
      ?_, ?_⟩
    · simp only [List.length_append]
      omega
    · intro _
      simp only [List.mem_append, not_or]
      exact ⟨⟨by decide, slash_not_mem_toString index⟩, hslash⟩
  · rw [if_neg hmarker, String.toList_append]
    refine ⟨marker.toList ++ (extension format).toList, rfl, ?_, fun h => ?_⟩
    · simp only [List.length_append]
      omega
    · simpa only [List.mem_append, not_or] using ⟨h, hslash⟩

theorem slash_not_mem_stem (output : String) :
    '/' ∉ (splitExtension (baseName output)).1.toList := by
  obtain ⟨rest, hbase, -⟩ := exists_of_splitExtension (baseName output)
  have h := slash_not_mem_baseName output
  rw [hbase, List.mem_append, not_or] at h
  exact h.1

theorem isAbsolute_nameOfSection (output marker : String) (index : Nat) (format : ReportFormat) :
    isAbsolute (nameOfSection output marker index format) = false := by
  obtain ⟨suffix, hname, -⟩ := exists_toList_nameOfSection output marker index format
  have hstem := slash_not_mem_stem output
  rw [isAbsolute, hname]
  cases hchars : (splitExtension (baseName output)).1.toList with
  | nil => rfl
  | cons c rest =>
    rw [hchars, List.mem_cons, not_or] at hstem
    simpa using Ne.symm hstem.1

theorem nameOfSection_ne_baseName (output marker : String) (index : Nat) (format : ReportFormat) :
    nameOfSection output marker index format ≠ baseName output := by
  intro h
  obtain ⟨suffix, hname, -⟩ := exists_toList_nameOfSection output marker index format
  obtain ⟨rest, hbase, hrest⟩ := exists_of_splitExtension (baseName output)
  rw [h, hbase] at hname
  exact hrest (by rw [List.append_cancel_left hname]; rfl)

/-- Unless its marker has a slash in it, a section has a file of its own that is not the
document. -/
theorem resolve_ofSection_ne (hmarker : '/' ∉ marker.toList)
    (hp : fs.resolve directory output = .ok p) :
    fs.resolve directory (ofSection output marker index format) ≠ .ok p := by
  intro hq
  obtain ⟨suffix, hname, hlength, hsuffix⟩ :=
    exists_toList_nameOfSection output marker index format
  have hslash : '/' ∉ (nameOfSection output marker index format).toList := by
    rw [hname, List.mem_append, List.mem_cons, not_or, not_or]
    exact ⟨slash_not_mem_stem output, by decide, hsuffix hmarker⟩
  have hlong : 2 < (nameOfSection output marker index format).toList.length := by
    rw [hname, List.length_append, List.length_cons]
    omega
  have hbase := slash_not_mem_baseName output
  have hdifferent := nameOfSection_ne_baseName output marker index format
  rw [ofSection_eq] at hq
  -- Both names are looked up in one directory.
  obtain ⟨d, hd, hd'⟩ : ∃ d, fs.walk "" d [baseName output] = .ok p ∧
      fs.walk "" d [nameOfSection output marker index format] = .ok p := by
    obtain ⟨hout, hown⟩ | ⟨front, n, k, hout, hown⟩ :=
      exists_front_of_parent output (isAbsolute_nameOfSection output marker index format)
    · rw [hown] at hq
      rw [String.toList_inj] at hout
      rw [hout] at hp
      exact ⟨directory, Files.walk_of_resolve_name hbase hp, Files.walk_of_resolve_name hslash hq⟩
    · obtain ⟨d, hd, hp⟩ := Files.exists_walk_of_resolve hout hbase hp
      obtain ⟨d', hd', hq⟩ := Files.exists_walk_of_resolve hown hslash hq
      cases hd.symm.trans hd'
      rw [String.ofList_toList] at hp hq
      exact ⟨d, hp, hq⟩
  obtain rfl := Files.walk_long_name hlong hd'
  obtain h | h | h := Files.of_walk_name hd
  · exact absurd (congrArg List.length h) (by simp)
  · have hlengths := congrArg List.length h
    simp only [List.length_append, List.length_singleton, List.length_dropLast] at hlengths
    omega
  · exact hdifferent (by simpa using h)

/-- The file of a section has an extension, so that it is not the directory of temporary files. -/
theorem resolve_ofSection_ne_tmp :
    fs.resolve directory (ofSection output marker index format) ≠ .ok ["tmp"] := by
  intro h
  have hextension : 2 < (extension format).toList.length ∧ '/' ∉ (extension format).toList ∧
      (extension format).toList.getLast? ≠ some 'p' := by
    cases format <;> decide
  obtain ⟨hlength, hslash, hlast⟩ := hextension
  obtain ⟨u, hu⟩ : ∃ u, (ofSection output marker index format).toList =
      u ++ (extension format).toList := by
    have hname := isAbsolute_nameOfSection output marker index format
    rw [ofSection_eq, join, if_neg (by simp [hname]), nameOfSection]
    split
    · rw [← String.append_assoc, String.toList_append]
      exact ⟨_, rfl⟩
    · rw [← String.append_assoc, String.toList_append]
      exact ⟨_, rfl⟩
  obtain ⟨front, last, hpieces⟩ := exists_pieces_append u hslash
  have hcomponents : components (ofSection output marker index format) =
      front.map String.ofList ++ [String.ofList (last ++ (extension format).toList)] := by
    rw [components, hu, hpieces]
    simp
  have hempty : (ofSection output marker index format).isEmpty = false := by
    rw [String.isEmpty_eq_false_iff, ← String.toList_inj.ne, hu]
    intro hnil
    have hlengths := congrArg List.length hnil
    simp only [List.length_append, String.toList_empty, List.length_nil] at hlengths
    omega
  rw [Files.resolve, if_neg (by simp [hempty]), hcomponents] at h
  obtain ⟨d, -, hname⟩ := Files.exists_walk_of_append h
  have hplace := Files.walk_long_name (by simp; omega) hname
  have htmp : "tmp" = String.ofList (last ++ (extension format).toList) := by
    simpa using congrArg List.getLast? hplace
  have hend : "tmp".toList.getLast? = (extension format).toList.getLast? := by
    have hne : (extension format).toList ≠ [] := by
      intro hnil
      simp [hnil] at hlength
    rw [htmp, String.toList_ofList, List.getLast?_append_of_ne_nil _ hne]
  exact hlast (hend.symm.trans (by decide))

end OutputPath
end ContainerDocs

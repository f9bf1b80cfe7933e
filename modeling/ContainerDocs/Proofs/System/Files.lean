import ContainerDocs.System.Files
import Mathlib.Data.List.Basic

/-!
# Laws of files

What an operation on a file leaves of the rest of the tree. A path that leads to a place goes
through directories only, and no operation on a file touches a directory, so that the path leads to
the same place afterwards.

## Main definitions

* `Files.Keeps` — all directories and what stands at the places of a class are kept.
* `Files.SameDirectories` — paths lead to the same places in two trees.

## Main statements

* `Files.exists_put_of_write`, `Files.exists_erase_of_remove` — what operations on files do.
* `Files.Keeps.of_write`, `Files.Keeps.of_remove` — what operations on files keep.
* `Files.Keeps.resolve`, `Files.Keeps.read` — paths that lead to a place still do.
* `Files.read_of_write` — what has been written is read.
* `Path.pieces_append_slash` — the pieces of a path that is put together.
-/

namespace ContainerDocs

namespace Path

theorem pieces_of_not_mem {u : List Char} (h : '/' ∉ u) : pieces u = [u] := by
  induction u with
  | nil => rfl
  | cons c u ih =>
    rw [List.mem_cons, not_or] at h
    rw [pieces, if_neg (Ne.symm h.1), ih h.2]

theorem exists_cons_of_pieces (u : List Char) : ∃ piece others, pieces u = piece :: others := by
  cases u with
  | nil => exact ⟨[], [], rfl⟩
  | cons c u =>
    rw [pieces]
    split
    · exact ⟨_, _, rfl⟩
    · split <;> exact ⟨_, _, rfl⟩

theorem pieces_append_slash (u v : List Char) : pieces (u ++ '/' :: v) = pieces u ++ pieces v := by
  induction u with
  | nil => rfl
  | cons c u ih =>
    rw [List.cons_append, pieces, pieces, ih]
    obtain ⟨piece, others, hu⟩ := exists_cons_of_pieces u
    rw [hu]
    split <;> rfl

theorem pieces_append_cons {u : List Char} (h : '/' ∉ u) (v : List Char) :
    pieces (u ++ '/' :: v) = u :: pieces v := by
  rw [pieces_append_slash, pieces_of_not_mem h, List.singleton_append]

theorem slash_not_mem_toString (n : Nat) : '/' ∉ (toString n).toList := by
  intro h
  have h : '/' ∈ n.repr.toList := h
  rw [Nat.toList_repr] at h
  exact absurd (Nat.isDigit_of_mem_toDigits (by decide) (by decide) h) (by decide)

/-- Different numbers are printed differently. -/
theorem toString_injective : Function.Injective (toString : Nat → String) := by
  intro m n h
  have hdigits : ∀ k : Nat, Nat.ofDigitChars 10 (toString k).toList 0 = k := by
    intro k
    rw [Nat.toString_eq_ofList_toDigits, String.toList_ofList]
    exact Nat.ofDigitChars_ten_toDigits
  rw [← hdigits m, h, hdigits n]

end Path

namespace Files

variable {fs fs' fs'' : Files} {place p q directory : Place} {path : String} {content : Bytes}

/-! ## Entries -/

@[simp] theorem find?_root (fs : Files) : fs.find? [] = some .directory := rfl

theorem ne_nil_of_find? (h : fs.find? place ≠ some .directory) : place ≠ [] := by
  rintro rfl
  exact h rfl

theorem find?_put (hp : place ≠ []) (entry : Entry) :
    (fs.put place entry).find? place = some entry := by
  simp [find?, put, hp]

theorem find?_filter_of_ne {entries : List (Place × Entry)} (h : q ≠ place) :
    (entries.filter (·.1 ≠ place)).find? (·.1 = q) = entries.find? (·.1 = q) := by
  rw [List.find?_filter]
  refine congrFun (congrArg List.find? (funext fun e => ?_)) entries
  rw [decide_eq_decide, decide_eq_true_eq, decide_eq_true_eq]
  exact ⟨fun he => he.2, fun he => ⟨he ▸ h, he⟩⟩

theorem find?_put_of_ne (h : q ≠ place) (entry : Entry) :
    (fs.put place entry).find? q = fs.find? q := by
  rw [find?, find?, put, List.find?_cons_of_neg (by simpa using h.symm), find?_filter_of_ne h]

theorem find?_erase (hp : place ≠ []) : (fs.erase place).find? place = none := by
  rw [find?, if_neg hp, erase, List.find?_filter]
  simp

theorem find?_erase_of_ne (h : q ≠ place) : (fs.erase place).find? q = fs.find? q := by
  rw [find?, find?, erase, find?_filter_of_ne h]

theorem erase_of_find? (h : fs.find? place = none) : fs.erase place = fs := by
  have hplace : place ≠ [] := by
    rintro rfl
    cases h
  rw [find?, if_neg hplace, Option.map_eq_none_iff, List.find?_eq_none] at h
  rw [erase, List.filter_eq_self.2 fun e he => by simpa using h e he]

theorem put_put (fs : Files) (place : Place) (entry entry' : Entry) :
    (fs.put place entry).put place entry' = fs.put place entry' := by
  simp [put, List.filter_filter]

theorem erase_put (h : fs.find? place = none) (entry : Entry) :
    (fs.put place entry).erase place = fs := by
  have hput : (fs.put place entry).erase place = fs.erase place := by
    simp [put, erase, List.filter_filter]
  rw [hput, erase_of_find? h]

def runsAt (fs : Files) (p : Place) : Bool :=
  match fs.find? p with
  | some (.file _ executable) => executable
  | _ => false

theorem runsAt_of_find? {executable : Bool} (h : fs.find? place = some (.file content executable)) :
    fs.runsAt place = executable := by
  rw [runsAt, h]

theorem runsAt_congr (h : fs'.find? place = fs.find? place) :
    fs'.runsAt place = fs.runsAt place := by
  rw [runsAt, runsAt, h]

/-! ## Operations -/

theorem read_eq (h : fs.resolve directory path = .ok place) :
    fs.read directory path =
      match fs.find? place with
      | some (.file content _) => .ok content
      | some .directory => .error (.isDirectory path)
      | none => .error (.missing path) := by
  rw [read, h]
  simp only [bind, Except.bind]
  rcases fs.find? place with - | (⟨content, executable⟩ | -) <;> rfl

/-- A content is written to where a path leads, unless that is a directory. Whether the file can be
run stays. -/
theorem write_eq (h : fs.resolve directory path = .ok place) (content : Bytes) :
    fs.write directory path content =
      if fs.find? place = some .directory then .error (.isDirectory path)
      else .ok (fs.put place (.file content (fs.runsAt place))) := by
  rw [write, h]
  simp only [bind, Except.bind]
  rcases hfile : fs.find? place with - | (⟨content', executable⟩ | -)
  · rw [if_neg (by simp), runsAt, hfile]
    rfl
  · rw [if_neg (by simp), runsAt_of_find? hfile]
    rfl
  · rfl

theorem remove_eq (h : fs.resolve directory path = .ok place) :
    fs.remove directory path =
      match fs.find? place with
      | some (.file ..) => .ok (fs.erase place)
      | some .directory => .error (.isDirectory path)
      | none => .error (.missing path) := by
  rw [remove, h]
  simp only [bind, Except.bind]
  rcases fs.find? place with - | (⟨content, executable⟩ | -) <;> rfl

theorem exists_resolve_of_write (h : fs.write directory path content = .ok fs') :
    ∃ place, fs.resolve directory path = .ok place := by
  rw [write] at h
  cases hplace : fs.resolve directory path with
  | error e =>
    rw [hplace] at h
    cases h
  | ok place => exact ⟨place, rfl⟩

theorem exists_resolve_of_remove (h : fs.remove directory path = .ok fs') :
    ∃ place, fs.resolve directory path = .ok place := by
  rw [remove] at h
  cases hplace : fs.resolve directory path with
  | error e =>
    rw [hplace] at h
    cases h
  | ok place => exact ⟨place, rfl⟩

theorem exists_resolve_of_read (h : fs.read directory path = .ok content) :
    ∃ place, fs.resolve directory path = .ok place := by
  rw [read] at h
  cases hplace : fs.resolve directory path with
  | error e =>
    rw [hplace] at h
    cases h
  | ok place => exact ⟨place, rfl⟩

theorem exists_resolve_of_readText {s : String} (h : fs.readText directory path = .ok s) :
    ∃ place, fs.resolve directory path = .ok place := by
  cases hread : fs.read directory path with
  | error e =>
    rw [readText, hread] at h
    cases h
  | ok content => exact exists_resolve_of_read hread

theorem exists_put_of_write (h : fs.write directory path content = .ok fs') :
    ∃ place, fs.resolve directory path = .ok place ∧ fs.find? place ≠ some .directory ∧
      fs' = fs.put place (.file content (fs.runsAt place)) := by
  obtain ⟨place, hplace⟩ := exists_resolve_of_write h
  rw [write_eq hplace] at h
  split_ifs at h with hdirectory
  cases h
  exact ⟨place, hplace, hdirectory, rfl⟩

theorem exists_erase_of_remove (h : fs.remove directory path = .ok fs') :
    ∃ place, fs.resolve directory path = .ok place ∧
      fs.find? place ≠ some .directory ∧ fs' = fs.erase place := by
  obtain ⟨place, hplace⟩ := exists_resolve_of_remove h
  rw [remove_eq hplace] at h
  split at h
  next hfile =>
    cases h
    exact ⟨place, hplace, by simp [hfile], rfl⟩
  next => cases h
  next => cases h

theorem walk_of_directories
    (hfs : ∀ p, fs.find? p = some .directory → fs'.find? p = some .directory)
    {path' : String} {here : Place} {pieces : List String}
    (h : fs.walk path here pieces = .ok place) : fs'.walk path' here pieces = .ok place := by
  induction pieces generalizing here with
  | nil => exact h
  | cons piece rest ih =>
    rw [walk] at h ⊢
    split at h
    next => cases h
    next => cases h
    next hhere =>
      rw [hfs here hhere]
      dsimp only
      split_ifs at h ⊢ with hsame hup
      · exact ih h
      · exact ih h
      · exact ih h

/-- A path that leads to a place leads there in every tree with the same directories. -/
theorem resolve_of_directories
    (hfs : ∀ p, fs.find? p = some .directory → fs'.find? p = some .directory)
    (h : fs.resolve directory path = .ok place) : fs'.resolve directory path = .ok place := by
  rw [resolve] at h ⊢
  split_ifs at h ⊢ with hempty
  · exact walk_of_directories hfs h
  · exact walk_of_directories hfs h

/-! ## What is kept -/

structure Keeps (kept : Place → Prop) (fs fs' : Files) : Prop where
  find?_eq : ∀ p, kept p → fs'.find? p = fs.find? p
  directory : ∀ p, fs'.find? p = some .directory ↔ fs.find? p = some .directory

namespace Keeps

variable {kept kept' : Place → Prop}

theorem refl (kept : Place → Prop) (fs : Files) : Keeps kept fs fs :=
  ⟨fun _ _ => rfl, fun _ => Iff.rfl⟩

theorem trans (h : Keeps kept fs fs') (h' : Keeps kept fs' fs'') : Keeps kept fs fs'' where
  find?_eq p hp := (h'.find?_eq p hp).trans (h.find?_eq p hp)
  directory p := (h'.directory p).trans (h.directory p)

theorem mono (h : Keeps kept fs fs') (hkept : ∀ p, kept' p → kept p) : Keeps kept' fs fs' where
  find?_eq p hp := h.find?_eq p (hkept p hp)
  directory := h.directory

theorem of_write (h : fs.write directory path content = .ok fs')
    (hkept : ∀ p, fs.resolve directory path = .ok p → ¬ kept p) : Keeps kept fs fs' := by
  obtain ⟨place, hplace, hfile, rfl⟩ := exists_put_of_write h
  have hne : ∀ p, p ≠ place →
      (fs.put place (.file content (fs.runsAt place))).find? p = fs.find? p :=
    fun p hp => find?_put_of_ne hp _
  refine ⟨fun p hp => hne p fun hpp => hkept place hplace (hpp ▸ hp), fun p => ?_⟩
  by_cases hp : p = place
  · subst hp
    rw [find?_put (ne_nil_of_find? hfile)]
    simp [hfile]
  · rw [hne p hp]

theorem of_remove (h : fs.remove directory path = .ok fs')
    (hkept : ∀ p, fs.resolve directory path = .ok p → ¬ kept p) : Keeps kept fs fs' := by
  obtain ⟨place, hplace, hfile, rfl⟩ := exists_erase_of_remove h
  have hne : ∀ p, p ≠ place → (fs.erase place).find? p = fs.find? p :=
    fun p hp => find?_erase_of_ne hp
  refine ⟨fun p hp => hne p fun hpp => hkept place hplace (hpp ▸ hp), fun p => ?_⟩
  by_cases hp : p = place
  · subst hp
    rw [find?_erase (ne_nil_of_find? hfile)]
    simp [hfile]
  · rw [hne p hp]

/-- A path leads to the same places as before. -/
theorem resolve_eq_ok (h : Keeps kept fs fs') :
    fs'.resolve directory path = .ok place ↔ fs.resolve directory path = .ok place :=
  ⟨resolve_of_directories fun p => (h.directory p).1,
    resolve_of_directories fun p => (h.directory p).2⟩

theorem resolve (h : Keeps kept fs fs') (hplace : fs.resolve directory path = .ok place) :
    fs'.resolve directory path = .ok place :=
  h.resolve_eq_ok.2 hplace

/-- What is read at a path that leads to a kept place is the same as before. -/
theorem read (h : Keeps kept fs fs') (hplace : fs.resolve directory path = .ok place)
    (hkept : kept place) : fs'.read directory path = fs.read directory path := by
  rw [read_eq hplace, read_eq (h.resolve hplace), h.find?_eq place hkept]

theorem readText (h : Keeps kept fs fs') (hplace : fs.resolve directory path = .ok place)
    (hkept : kept place) : fs'.readText directory path = fs.readText directory path := by
  rw [Files.readText, Files.readText, h.read hplace hkept]

/-- A content that can be written after other changes can be written before them. -/
theorem write {gs' : Files} (h : Keeps kept fs fs')
    (hwrite : fs'.write directory path content = .ok gs') :
    ∃ gs, fs.write directory path content = .ok gs ∧ Keeps kept gs gs' := by
  obtain ⟨place, hplace, hfile, rfl⟩ := exists_put_of_write hwrite
  have hroot := ne_nil_of_find? hfile
  have hfile' : fs.find? place ≠ some .directory := fun hdir => hfile ((h.directory place).2 hdir)
  refine ⟨_, (write_eq (h.resolve_eq_ok.1 hplace) content).trans (if_neg hfile'), ?_, ?_⟩
  · intro p hp
    by_cases hpp : p = place
    · subst hpp
      rw [find?_put hroot, find?_put hroot, runsAt_congr (h.find?_eq p hp)]
    · rw [find?_put_of_ne hpp, find?_put_of_ne hpp, h.find?_eq p hp]
  · intro p
    by_cases hpp : p = place
    · subst hpp
      rw [find?_put hroot, find?_put hroot]
      simp
    · rw [find?_put_of_ne hpp, find?_put_of_ne hpp, h.directory p]

end Keeps

/-- Two trees have the same directories, so that paths lead to the same places. -/
def SameDirectories (fs fs' : Files) : Prop := Keeps (fun _ => False) fs fs'

theorem Keeps.sameDirectories {kept : Place → Prop} (h : Keeps kept fs fs') :
    fs.SameDirectories fs' :=
  h.mono fun _ h => h.elim

/-- A file that can be read can be written. -/
theorem exists_write_of_read (h : fs.read directory path = .ok content) (content' : Bytes) :
    ∃ fs', fs.write directory path content' = .ok fs' := by
  obtain ⟨place, hplace⟩ := exists_resolve_of_read h
  rw [read_eq hplace] at h
  rw [write_eq hplace, if_neg]
  · exact ⟨_, rfl⟩
  · intro hdirectory
    rw [hdirectory] at h
    cases h

/-- What has been written to a file is read from it. -/
theorem read_of_write (h : fs.write directory path content = .ok fs') :
    fs'.read directory path = .ok content := by
  obtain ⟨place, hplace, hfile, hfs⟩ := exists_put_of_write h
  have hkeeps : Keeps (· ≠ place) fs fs' := by
    refine .of_write h fun p hp => ?_
    rw [hplace] at hp
    cases hp
    simp
  rw [read_eq (hkeeps.resolve hplace), hfs, find?_put (ne_nil_of_find? hfile)]

/-! ## Trees that are alike -/

/-- Two trees differ at most in the files at places of a class and in their contents: they have the
same directories and the same programs. -/
structure Alike (free : Place → Prop) (fs fs' : Files) : Prop where
  find?_eq : ∀ p, ¬ free p → fs'.find? p = fs.find? p
  directory : ∀ p, fs'.find? p = some .directory ↔ fs.find? p = some .directory
  runsAt_eq : ∀ p, fs'.runsAt p = fs.runsAt p

namespace Alike

variable {free : Place → Prop} {gs gs' : Files}

theorem refl (free : Place → Prop) (fs : Files) : Alike free fs fs :=
  ⟨fun _ _ => rfl, fun _ => Iff.rfl, fun _ => rfl⟩

theorem symm (h : Alike free fs fs') : Alike free fs' fs where
  find?_eq p hp := (h.find?_eq p hp).symm
  directory p := (h.directory p).symm
  runsAt_eq p := (h.runsAt_eq p).symm

theorem trans (h : Alike free fs fs') (h' : Alike free fs' fs'') : Alike free fs fs'' where
  find?_eq p hp := (h'.find?_eq p hp).trans (h.find?_eq p hp)
  directory p := (h'.directory p).trans (h.directory p)
  runsAt_eq p := (h'.runsAt_eq p).trans (h.runsAt_eq p)

theorem sameDirectories (h : Alike free fs fs') : fs.SameDirectories fs' :=
  ⟨fun _ h => h.elim, h.directory⟩

theorem resolve_eq_ok (h : Alike free fs fs') :
    fs'.resolve directory path = .ok place ↔ fs.resolve directory path = .ok place :=
  ⟨resolve_of_directories fun p => (h.directory p).1,
    resolve_of_directories fun p => (h.directory p).2⟩

theorem read_eq (h : Alike free fs fs') (hplace : fs.resolve directory path = .ok place)
    (hp : ¬ free place) : fs'.read directory path = fs.read directory path := by
  rw [Files.read_eq hplace, Files.read_eq (h.resolve_eq_ok.2 hplace), h.find?_eq place hp]

theorem isProgram_eq (h : Alike free fs fs') (directory : Place) (path : String) :
    fs'.isProgram directory path = fs.isProgram directory path := by
  cases hplace : fs.resolve directory path with
  | ok p =>
    have hprogram : ∀ gs : Files, gs.resolve directory path = .ok p →
        gs.isProgram directory path = gs.runsAt p := by
      intro gs hgs
      rw [isProgram, entryAt?, hgs]
      rfl
    rw [hprogram fs hplace, hprogram fs' (h.resolve_eq_ok.2 hplace)]
    exact h.runsAt_eq p
  | error e =>
    cases hplace' : fs'.resolve directory path with
    | ok p =>
      rw [h.resolve_eq_ok.1 hplace'] at hplace
      cases hplace
    | error e' =>
      rw [isProgram, isProgram, entryAt?, entryAt?, hplace, hplace']

/-- The same change at a place keeps trees alike. -/
theorem change (place : Place) (h : Alike free fs fs') (hplace : gs'.find? place = gs.find? place)
    (hgs : ∀ p, p ≠ place → gs.find? p = fs.find? p)
    (hgs' : ∀ p, p ≠ place → gs'.find? p = fs'.find? p) : Alike free gs gs' := by
  constructor
  · intro p hp
    by_cases hpp : p = place
    · rw [hpp, hplace]
    · rw [hgs p hpp, hgs' p hpp, h.find?_eq p hp]
  · intro p
    by_cases hpp : p = place
    · rw [hpp, hplace]
    · rw [hgs p hpp, hgs' p hpp, h.directory p]
  · intro p
    by_cases hpp : p = place
    · rw [hpp, runsAt, runsAt, hplace]
    · have hruns := h.runsAt_eq p
      rw [runsAt, runsAt] at hruns ⊢
      rw [hgs p hpp, hgs' p hpp, hruns]

theorem put (h : Alike free fs fs') (hplace : place ≠ []) (entry : Entry) :
    Alike free (fs.put place entry) (fs'.put place entry) := by
  refine h.change place ?_ (fun p hp => find?_put_of_ne hp _) fun p hp => find?_put_of_ne hp _
  rw [find?_put hplace, find?_put hplace]

theorem erase (h : Alike free fs fs') (hplace : place ≠ []) :
    Alike free (fs.erase place) (fs'.erase place) := by
  refine h.change place ?_ (fun p hp => find?_erase_of_ne hp) fun p hp => find?_erase_of_ne hp
  rw [find?_erase hplace, find?_erase hplace]

theorem write (h : Alike free fs fs') (hwrite : fs.write directory path content = .ok gs) :
    ∃ gs', fs'.write directory path content = .ok gs' ∧ Alike free gs gs' := by
  obtain ⟨place, hplace, hfile, rfl⟩ := exists_put_of_write hwrite
  have hroot := ne_nil_of_find? hfile
  have hfile' : fs'.find? place ≠ some .directory := fun hdir => hfile ((h.directory place).1 hdir)
  refine ⟨_, (write_eq (h.resolve_eq_ok.2 hplace) content).trans (if_neg hfile'), ?_⟩
  refine h.change place ?_ (fun p hp => find?_put_of_ne hp _)
    fun p hp => find?_put_of_ne hp _
  rw [find?_put hroot, find?_put hroot, h.runsAt_eq place]

theorem remove (h : Alike free fs fs') (hremove : fs.remove directory path = .ok gs)
    (hfree : ∀ p, fs.resolve directory path = .ok p → ¬ free p) :
    ∃ gs', fs'.remove directory path = .ok gs' ∧ Alike free gs gs' := by
  obtain ⟨place, hplace, hfile, rfl⟩ := exists_erase_of_remove hremove
  have hroot := ne_nil_of_find? hfile
  rw [remove_eq hplace] at hremove
  rw [remove_eq (h.resolve_eq_ok.2 hplace), h.find?_eq place (hfree place hplace)]
  have herase : Alike free (fs.erase place) (fs'.erase place) := by
    refine h.change place ?_ (fun p hp => find?_erase_of_ne hp)
      fun p hp => find?_erase_of_ne hp
    rw [find?_erase hroot, find?_erase hroot]
  split at hremove
  next => exact ⟨_, rfl, herase⟩
  next => cases hremove
  next => cases hremove

theorem write_getD (h : Alike free fs fs') :
    Alike free ((fs.write directory path content).toOption.getD fs)
      ((fs'.write directory path content).toOption.getD fs') := by
  cases hwrite : fs.write directory path content with
  | ok gs =>
    obtain ⟨gs', hwrite', halike⟩ := h.write hwrite
    rw [hwrite']
    exact halike
  | error e =>
    cases hwrite' : fs'.write directory path content with
    | ok gs' =>
      obtain ⟨gs, hgs, -⟩ := h.symm.write hwrite'
      rw [hgs] at hwrite
      cases hwrite
    | error e' => exact h

theorem remove_getD (h : Alike free fs fs')
    (hfree : ∀ p, fs.resolve directory path = .ok p → ¬ free p) :
    Alike free ((fs.remove directory path).toOption.getD fs)
      ((fs'.remove directory path).toOption.getD fs') := by
  cases hremove : fs.remove directory path with
  | ok gs =>
    obtain ⟨gs', hremove', halike⟩ := h.remove hremove hfree
    rw [hremove']
    exact halike
  | error e =>
    cases hremove' : fs'.remove directory path with
    | ok gs' =>
      obtain ⟨gs, hgs, -⟩ := h.symm.remove hremove' fun p hp => hfree p (h.resolve_eq_ok.1 hp)
      rw [hgs] at hremove
      cases hremove
    | error e' => exact h

/-- A content that is written to a place of the class leaves trees alike. -/
theorem of_write (hwrite : fs.write directory path content = .ok gs)
    (hfree : ∀ p, fs.resolve directory path = .ok p → free p) : Alike free fs gs := by
  have hkeeps : Keeps (¬ free ·) fs gs := .of_write hwrite fun p hp hkept => hkept (hfree p hp)
  refine ⟨hkeeps.find?_eq, hkeeps.directory, fun p => ?_⟩
  obtain ⟨place, hplace, hfile, rfl⟩ := exists_put_of_write hwrite
  by_cases hp : p = place
  · subst hp
    exact runsAt_of_find? (find?_put (ne_nil_of_find? hfile) _)
  · exact runsAt_congr (find?_put_of_ne hp _)

end Alike

end Files
end ContainerDocs

import ContainerDocs.Proofs.System.Files
import ContainerDocs.Proofs.System.Run
import ContainerDocs.Proofs.Text.Encoding

/-!
# Reading, writing and printing text

A text is read with every line end as one line break. It is written and printed as its bytes, which
it has exactly if no half of a surrogate pair is in it. A text without bytes stops the run, and the
file that it should have been written to is then empty.

## Main definitions

* `Run.LeavesOff` — what a run has left that stopped, maybe in a write.
* `Files.Written` — texts are written to files one after another.

## Main statements

* `Files.readText_eq`, `Run.exec_readText` — texts are read from bytes.
* `Run.exec_writeText`, `Run.exec_printLine` — texts are written and printed as bytes.
-/

namespace ContainerDocs

open Encoding Lines

namespace Encoding

theorem encode_ofString (s : String) : encode (Text.ofString s) = .ok (encodeString s) :=
  encode_eq_ok_iff.2 ⟨Text.isHalf_ofChars s.toList, bytesOf_ofString s⟩

/-- A text has bytes exactly if it has bytes with a string after it. -/
theorem isOk_encode_append (t : Text) (s : String) :
    (encode (t ++ Text.ofString s)).isOk = (encode t).isOk := by
  have hok : ∀ t, (encode t).isOk = true ↔ ∀ c ∈ t, c.isHalf = false := by
    intro t
    constructor
    · intro h
      cases hbytes : encode t with
      | ok bytes => exact (encode_eq_ok_iff.1 hbytes).1
      | error e =>
        rw [hbytes] at h
        cases h
    · intro h
      rw [encode_eq_ok_iff.2 ⟨h, rfl⟩]
      rfl
  have hs := (encode_eq_ok_iff.1 (encode_ofString s)).1
  rw [Bool.eq_iff_iff, hok, hok]
  simp only [List.mem_append]
  exact ⟨fun h c hc => h c (.inl hc), fun h c hc => hc.elim (h c) (hs c)⟩

end Encoding

/-! ## Reading -/

/-- The text of a file is that of its bytes with unified line ends. -/
theorem Files.readText_eq {fs : Files} {directory : Place} {path : String} {content : Bytes}
    (h : fs.read directory path = .ok content) :
    fs.readText directory path =
      match decodeString content with
      | .ok s => .ok (String.ofList (unify s.toList))
      | .error e => .error (.decode e) := by
  rw [Files.readText, h]
  dsimp only
  cases decodeString content <;> rfl

namespace Run

variable {w : World} {m m' : Machine} {path : String} {text : Text} {stop : Stop}

theorem exec_readText (path : String) (w : World) (m : Machine) :
    exec (readText path) w m =
      match m.files.readText w.place path with
      | .ok s => (.ok (.ok s), m)
      | .error (.system e) => (.ok (.error e), m)
      | .error (.decode e) => (.error (.crash (.decode e)), m) := by
  rw [readText, exec_bind, exec_get]
  dsimp only
  rw [exec_bind, exec_place]
  dsimp only
  rcases m.files.readText w.place path with (e | e) | s <;> rfl

/-! ## Writing and printing -/

theorem exec_writeText (path : String) (text : Text) (w : World) (m : Machine) :
    exec (writeText path text) w m =
      match m.files.write w.place path ((encode text).toOption.getD []) with
      | .error e => (.error (.failure (.outputUnwritable path e)), m)
      | .ok files =>
        match encode text with
        | .ok _ => (.ok (), { m with files := files })
        | .error e => (.error (.crash (.encode e)), { m with files := files }) := by
  rw [writeText, exec_bind, exec_place]
  dsimp only
  cases hbytes : encode text with
  | ok bytes =>
    have hcontent : (Except.ok (ε := EncodeError) bytes).toOption.getD [] = bytes := rfl
    dsimp only
    rw [hcontent, exec_bind, exec_get]
    dsimp only
    cases hwrite : m.files.write w.place path bytes <;> rfl
  | error e =>
    have hcontent : (Except.error (α := Bytes) e).toOption.getD [] = [] := rfl
    dsimp only
    rw [hcontent, exec_bind, exec_bind, exec_get]
    dsimp only
    cases hwrite : m.files.write w.place path [] <;> rfl

/-- A text is written as its bytes, which it has exactly if no half of a pair is in it. -/
theorem exec_writeText_eq_ok_iff :
    exec (writeText path text) w m = (.ok (), m') ↔
      (∀ c ∈ text, c.isHalf = false) ∧
        ∃ files, m.files.write w.place path (bytesOf text) = .ok files ∧
          m' = { m with files := files } := by
  have hbytes : (∀ c ∈ text, c.isHalf = false) ↔ encode text = .ok (bytesOf text) := by
    simp [encode_eq_ok_iff]
  rw [exec_writeText, hbytes]
  cases htext : encode text with
  | ok bytes =>
    obtain rfl := (encode_eq_ok_iff.1 htext).2
    have hcontent : (Except.ok (ε := EncodeError) (bytesOf text)).toOption.getD [] = bytesOf text :=
      rfl
    rw [hcontent]
    cases m.files.write w.place path (bytesOf text) <;> simp [eq_comm]
  | error e =>
    cases m.files.write w.place path _ <;> simp

/-- What a run has left that stopped: the places of a class are as they were. Only a file that it
was to write may be empty instead, if the text had no bytes. -/
structure LeavesOff (w : World) (stop : Stop) (kept : Place → Prop) (target : Option String)
    (fs fs' : Files) : Prop where
  elsewhere : fs.Keeps (fun p => kept p ∧ ∀ path ∈ target, fs.resolve w.place path ≠ .ok p) fs'
  target : ∀ path ∈ target, ∀ p, fs.resolve w.place path = .ok p → kept p →
    fs'.find? p = fs.find? p ∨ (∃ e, stop = .crash (.encode e)) ∧
      ∃ executable, fs'.find? p = some (.file [] executable)

namespace LeavesOff

variable {kept kept' : Place → Prop} {target : Option String} {fs fs₁ fs' : Files}

theorem of_keeps (h : fs.Keeps kept fs') : LeavesOff w stop kept target fs fs' :=
  ⟨h.mono fun _ hp => hp.1, fun _ _ p _ hp => .inl (h.find?_eq p hp)⟩

theorem mono (h : LeavesOff w stop kept target fs fs') (hkept : ∀ p, kept' p → kept p) :
    LeavesOff w stop kept' target fs fs' where
  elsewhere := h.elsewhere.mono fun p hp => ⟨hkept p hp.1, hp.2⟩
  target path hpath p hplace hp := h.target path hpath p hplace (hkept p hp)

/-- What has been kept before counts as well. -/
theorem after (h : fs.Keeps kept fs₁) (h' : LeavesOff w stop kept target fs₁ fs') :
    LeavesOff w stop kept target fs fs' where
  elsewhere := (h.mono fun _ hp => hp.1).trans <| h'.elsewhere.mono fun _ hp =>
    ⟨hp.1, fun path hpath hplace => hp.2 path hpath (h.resolve_eq_ok.1 hplace)⟩
  target path hpath p hplace hp := by
    rw [← h.find?_eq p hp]
    exact h'.target path hpath p (h.resolve hplace) hp

/-- A file of the class that is not as it was is the one that was to be written. -/
theorem find?_eq_or (h : LeavesOff w stop kept target fs fs') {p : Place} (hp : kept p) :
    fs'.find? p = fs.find? p ∨ (∃ path ∈ target, fs.resolve w.place path = .ok p) ∧
      (∃ e, stop = .crash (.encode e)) ∧
        ∃ executable, fs'.find? p = some (.file [] executable) := by
  by_cases htarget : ∃ path ∈ target, fs.resolve w.place path = .ok p
  · obtain ⟨path, hpath, hplace⟩ := htarget
    exact (h.target path hpath p hplace hp).imp_right fun hempty => ⟨⟨path, hpath, hplace⟩, hempty⟩
  · exact .inl (h.elsewhere.find?_eq p
      ⟨hp, fun path hpath hplace => htarget ⟨path, hpath, hplace⟩⟩)

end LeavesOff

theorem leavesOff_of_writeText {kept : Place → Prop}
    (h : exec (writeText path text) w m = (.error stop, m')) :
    LeavesOff w stop kept (some path) m.files m'.files := by
  rw [exec_writeText] at h
  cases htext : encode text with
  | ok bytes =>
    rw [htext] at h
    split at h <;> cases h
    exact .of_keeps (.refl kept _)
  | error e =>
    have hcontent : (Except.error (α := Bytes) e).toOption.getD [] = [] := rfl
    rw [htext, hcontent] at h
    split at h
    next =>
      cases h
      exact .of_keeps (.refl kept _)
    next files hfiles =>
      cases h
      refine ⟨.of_write hfiles fun p hplace hp => hp.2 path rfl hplace, ?_⟩
      rintro _ ⟨⟩ p hplace -
      obtain ⟨place, hplace', hfile, rfl⟩ := Files.exists_put_of_write hfiles
      cases hplace.symm.trans hplace'
      exact .inr ⟨⟨e, rfl⟩, _, Files.find?_put (Files.ne_nil_of_find? hfile) _⟩

/-- A write that is noted stops where the write does. -/
theorem exec_writeText_info_eq_error {line : String}
    (h : exec (writeText path text >>= fun _ => info line) w m = (.error stop, m')) :
    exec (writeText path text) w m = (.error stop, m') := by
  rw [exec_bind] at h
  rcases hwrite : exec (writeText path text) w m with ⟨e | u, m₁⟩ <;> rw [hwrite] at h <;> cases h
  rfl

theorem exists_write_of_info {line : String}
    (h : exec (writeText path text >>= fun _ => info line) w m = (.ok (), m')) :
    ∃ bytes files, encode text = .ok bytes ∧ m.files.write w.place path bytes = .ok files ∧
      m' = { m with files := files, notes := (.info, line) :: m.notes } := by
  obtain ⟨_, m₁, hwrite, hnote⟩ := exec_bind_eq_ok.1 h
  obtain ⟨hall, files, hfiles, rfl⟩ := exec_writeText_eq_ok_iff.1 hwrite
  cases hnote
  exact ⟨bytesOf text, files, encode_eq_ok_iff.2 ⟨hall, rfl⟩, hfiles, rfl⟩

theorem exec_printLine (text : Text) (w : World) (m : Machine) :
    exec (printLine text) w m =
      match encode (text ++ Text.ofString "\n") with
      | .ok _ => (.ok (), { m with printed := (text ++ Text.ofString "\n") :: m.printed })
      | .error e => (.error (.crash (.encode e)), m) := by
  change exec (print (text ++ Text.ofString "\n")) w m = _
  rw [print]
  cases encode (text ++ Text.ofString "\n") <;> rfl

end Run

/-! ## Texts in a row -/

namespace Files

variable {kept : Place → Prop} {directory : Place} {fs fs₁ fs' gs' : Files}
  {texts texts' : List (String × Text)}

inductive Written (directory : Place) : Files → List (String × Text) → Files → Prop
  | nil (fs : Files) : Written directory fs [] fs
  | cons {fs fs₁ fs' : Files} {path : String} {text : Text} {bytes : Bytes}
      {rest : List (String × Text)} (hbytes : encode text = .ok bytes)
      (hwrite : fs.write directory path bytes = .ok fs₁) (hrest : Written directory fs₁ rest fs') :
      Written directory fs ((path, text) :: rest) fs'

theorem Written.append (h : Written directory fs texts fs₁)
    (h' : Written directory fs₁ texts' fs') : Written directory fs (texts ++ texts') fs' := by
  induction h with
  | nil fs => exact h'
  | cons hbytes hwrite _ ih => exact .cons hbytes hwrite (ih h')

theorem Written.keeps (h : Written directory fs texts fs') : Keeps (fun _ => False) fs fs' := by
  induction h with
  | nil fs => exact .refl _ fs
  | cons _ hwrite _ ih => exact (Keeps.of_write hwrite fun _ _ h => h).trans ih

/-- Texts that can be written after other changes can be written before them. -/
theorem Keeps.written (h : Keeps kept fs fs') (h' : Written directory fs' texts gs') :
    ∃ gs, Written directory fs texts gs ∧ Keeps kept gs gs' := by
  induction h' generalizing fs with
  | nil fs' => exact ⟨fs, .nil fs, h⟩
  | cons hbytes hwrite _ ih =>
    obtain ⟨gs₁, hwrite₁, hkeeps₁⟩ := h.write hwrite
    obtain ⟨gs, hrest, hkeeps⟩ := ih hkeeps₁
    exact ⟨gs, .cons hbytes hwrite₁ hrest, hkeeps⟩

end Files
end ContainerDocs

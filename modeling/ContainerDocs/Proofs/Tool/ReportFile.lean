import ContainerDocs.Proofs.System.Files
import ContainerDocs.Proofs.System.Supervise

/-!
# The file of a report

The layer tool writes its report to a new file in the directory for temporary files. The name of the
file is one that nothing has yet, so that the file can be made, written and removed without a change
to any other file.

## Main definitions

* `Adapter.reportPlace` — where a report is.
* `Adapter.IsFree` — a report can be made under a number.
* `Adapter.HoldsReport` — the files are the given ones, with or without a report.

## Main statements

* `Adapter.resolve_reportPath` — a report is where its path says.
* `Adapter.exec_newReport` — a new report gets a name that is free.
* `Adapter.HoldsReport.write`, `Adapter.HoldsReport.remove` — what becomes of the files.
-/

namespace ContainerDocs

open Run

namespace Adapter

/-! ## Paths and places -/

def reportName (n : Nat) : String := "dive-output-" ++ toString n ++ ".json"

def reportPlace (n : Nat) : Place := ["tmp", reportName n]

theorem toList_append₃ (s t u : String) :
    (s ++ t ++ u).toList = s.toList ++ (t.toList ++ u.toList) := by
  rw [String.toList_append, String.toList_append, List.append_assoc]

theorem toList_reportName (n : Nat) :
    (reportName n).toList = "dive-output-".toList ++ ((toString n).toList ++ ".json".toList) :=
  toList_append₃ ..

theorem slash_not_mem_reportName (n : Nat) : '/' ∉ (reportName n).toList := by
  simp only [toList_reportName, List.mem_append, not_or]
  exact ⟨by decide, Path.slash_not_mem_toString n, by decide⟩

theorem toList_reportPath (n : Nat) :
    (reportPath n).toList = '/' :: ("tmp".toList ++ '/' :: (reportName n).toList) := by
  have hstart : "/tmp/dive-output-".toList =
      '/' :: ("tmp".toList ++ '/' :: "dive-output-".toList) := by decide
  have hpath : (reportPath n).toList = _ := toList_append₃ ..
  rw [hpath, hstart, toList_reportName, List.cons_append, List.append_assoc]
  rfl

theorem components_reportPath (n : Nat) :
    Path.components (reportPath n) = ["", "tmp", reportName n] := by
  have hroot := Path.pieces_append_cons (u := []) (by simp) ("tmp".toList ++ '/' ::
    (reportName n).toList)
  rw [List.nil_append] at hroot
  rw [Path.components, toList_reportPath, hroot, Path.pieces_append_cons (by decide),
    Path.pieces_of_not_mem (slash_not_mem_reportName n)]
  simp only [List.map_cons, List.map_nil, String.ofList_toList, String.ofList_nil]

theorem reportName_ne {n : Nat} {s : String} (h : s.toList.length < 5) : reportName n ≠ s := by
  rintro rfl
  have hlength : 5 ≤ ".json".toList.length := by decide
  simp only [toList_reportName, List.length_append] at h
  omega

theorem resolve_reportPath_eq (fs : Files) (directory : Place) (n : Nat) :
    fs.resolve directory (reportPath n) =
      match fs.find? ["tmp"] with
      | some .directory => .ok (reportPlace n)
      | some (.file ..) => .error (.notDirectory (reportPath n))
      | none => .error (.missing (reportPath n)) := by
  have habsolute : Path.isAbsolute (reportPath n) = true := by
    rw [Path.isAbsolute, toList_reportPath]
    rfl
  have hempty : (reportPath n).isEmpty = false := by
    rw [String.isEmpty_eq_false_iff, ← String.toList_inj.ne, toList_reportPath]
    simp
  -- Neither component stays in its directory or leads out of it.
  have htmp : ¬ ("tmp" = "" ∨ "tmp" = ".") ∧ "tmp" ≠ ".." := by decide
  have hname : ¬ (reportName n = "" ∨ reportName n = ".") ∧ reportName n ≠ ".." :=
    ⟨not_or.2 ⟨reportName_ne (by decide), reportName_ne (by decide)⟩,
      reportName_ne (by decide)⟩
  rw [Files.resolve, if_neg (by simp [hempty]), if_pos habsolute, components_reportPath]
  simp only [Files.walk, Files.find?_root, true_or, if_true, if_neg htmp.1, if_neg htmp.2,
    if_neg hname.1, if_neg hname.2, List.nil_append]
  rcases fs.find? ["tmp"] with - | - | - <;> rfl

/-- A path of a report leads to the place of the report. -/
theorem resolve_reportPath {fs : Files} {directory p : Place} {n : Nat}
    (h : fs.resolve directory (reportPath n) = .ok p) : p = reportPlace n := by
  rw [resolve_reportPath_eq] at h
  split at h <;> cases h
  rfl

theorem read_reportPath {free : Place → Prop} {fs fs' : Files} (h : fs.Alike free fs')
    (htmp : ¬ free ["tmp"]) {n : Nat} (hn : ¬ free (reportPlace n)) (directory : Place) :
    fs'.read directory (reportPath n) = fs.read directory (reportPath n) := by
  have hsame : fs'.resolve directory (reportPath n) = fs.resolve directory (reportPath n) := by
    rw [resolve_reportPath_eq, resolve_reportPath_eq, h.find?_eq _ htmp]
  cases hplace : fs.resolve directory (reportPath n) with
  | ok p => exact h.read_eq hplace (resolve_reportPath hplace ▸ hn)
  | error e => rw [Files.read, Files.read, hsame, hplace]; rfl

theorem reportPlace_ne_nil (n : Nat) : reportPlace n ≠ [] := List.cons_ne_nil _ _

theorem reportPlace_ne_tmp (n : Nat) : ["tmp"] ≠ reportPlace n := by
  simp [reportPlace]

theorem reportPath_injective {n k : Nat} (h : reportPath n = reportPath k) : n = k := by
  rw [← String.toList_inj, toList_reportPath, toList_reportPath] at h
  have hname : (reportName n).toList = (reportName k).toList := by simpa using h
  rw [toList_reportName, toList_reportName] at hname
  exact Path.toString_injective
    (String.toList_inj.1 (List.append_cancel_right (List.append_cancel_left hname)))

/-- A text that does not start with a slash is no path of a report. -/
theorem ne_reportPath {s : String} (h : s.toList.head? ≠ some '/') (n : Nat) :
    s ≠ reportPath n := by
  rintro rfl
  rw [toList_reportPath] at h
  exact h rfl

/-! ## New reports -/

variable {w : World} {fs gs : Files} {n : Nat}

/-- A report can be made under a number, since nothing has its name yet. -/
structure IsFree (fs : Files) (n : Nat) : Prop where
  directory : fs.find? ["tmp"] = some .directory
  fresh : fs.find? (reportPlace n) = none

def withReport (fs : Files) (n : Nat) : Files := fs.put (reportPlace n) (.file [] false)

theorem create_reportPath (fs : Files) (directory : Place) (n : Nat) :
    fs.create directory (reportPath n) =
      match fs.find? ["tmp"] with
      | some .directory =>
        if fs.find? (reportPlace n) = none then .ok (withReport fs n)
        else .error (.alreadyThere (reportPath n))
      | some (.file ..) => .error (.notDirectory (reportPath n))
      | none => .error (.missing (reportPath n)) := by
  rw [Files.create, resolve_reportPath_eq]
  rcases fs.find? ["tmp"] with - | - | - <;> try rfl
  simp only [bind, Except.bind]
  cases hplace : fs.find? (reportPlace n) with
  | none => rfl
  | some entry => rfl

/-- Files in which the same of the drawn names are taken give the same new report. -/
theorem exists_drawReport {fs' : Files} {draw : Nat → Nat}
    (htmp : fs'.find? ["tmp"] = fs.find? ["tmp"])
    (hreports : ∀ k, fs'.find? (reportPlace (draw k)) = fs.find? (reportPlace (draw k)))
    (draws tried : Nat) : ∃ (r : Except Crash Nat) (k : Nat),
      drawReport draw fs draws tried = (r.map fun n => (n, withReport fs n), k) ∧
      drawReport draw fs' draws tried = (r.map fun n => (n, withReport fs' n), k) ∧
      tried ≤ k ∧ ∀ n, r = .ok n → IsFree fs n ∧ ∃ k, draw k = n := by
  induction draws generalizing tried with
  | zero => exact ⟨.error _, tried, rfl, rfl, Nat.le_refl _, by rintro _ ⟨⟩⟩
  | succ draws ih =>
    have hstop : ∀ e : SystemError, e ≠ .alreadyThere (reportPath (draw tried)) →
        fs.create [] (reportPath (draw tried)) = .error e →
        fs'.create [] (reportPath (draw tried)) = .error e → ∃ (r : Except Crash Nat) (k : Nat),
          drawReport draw fs (draws + 1) tried = (r.map fun n => (n, withReport fs n), k) ∧
          drawReport draw fs' (draws + 1) tried = (r.map fun n => (n, withReport fs' n), k) ∧
          tried ≤ k ∧ ∀ n, r = .ok n → IsFree fs n ∧ ∃ k, draw k = n := by
      intro e he h h'
      refine ⟨.error (.system e.number e.message), tried + 1, ?_, ?_, Nat.le_succ _, by rintro _ ⟨⟩⟩
      · rw [drawReport, h]
        exact if_neg he
      · rw [drawReport, h']
        exact if_neg he
    have hcreate := create_reportPath fs [] (draw tried)
    have hcreate' := create_reportPath fs' [] (draw tried)
    rw [htmp, hreports] at hcreate'
    rcases hentry : fs.find? ["tmp"] with - | (⟨content, executable⟩ | -) <;>
      rw [hentry] at hcreate hcreate'
    · exact hstop _ (by simp [SystemError.missing, SystemError.alreadyThere]) hcreate hcreate'
    · exact hstop _ (by simp [SystemError.notDirectory, SystemError.alreadyThere]) hcreate hcreate'
    · by_cases hfresh : fs.find? (reportPlace (draw tried)) = none
      · simp only [hfresh, if_true] at hcreate hcreate'
        refine ⟨.ok (draw tried), tried + 1, ?_, ?_, Nat.le_succ _, ?_⟩
        · rw [drawReport, hcreate]
          rfl
        · rw [drawReport, hcreate']
          rfl
        · rintro _ ⟨⟩
          exact ⟨⟨hentry, hfresh⟩, tried, rfl⟩
      · simp only [hfresh, if_false] at hcreate hcreate'
        obtain ⟨r, k, h, h', hk, hfree⟩ := ih (tried + 1)
        refine ⟨r, k, ?_, ?_, Nat.le_of_succ_le hk, hfree⟩
        · rw [drawReport, hcreate]
          exact (if_pos rfl).trans h
        · rw [drawReport, hcreate']
          exact (if_pos rfl).trans h'

theorem exec_newReport_of_ok {m : Machine} {k : Nat}
    (h : drawReport w.draw m.files maxDraws m.temporaries = (.ok (n, gs), k)) :
    exec newReport w m = (.ok (reportPath n), { m with files := gs, temporaries := k }) := by
  rw [newReport, exec_bind, exec_get]
  dsimp only
  rw [exec_bind, exec_read]
  dsimp only
  rw [h]
  rfl

theorem exec_newReport_of_error {m : Machine} {c : Crash} {k : Nat}
    (h : drawReport w.draw m.files maxDraws m.temporaries = (.error c, k)) :
    exec newReport w m = (.error (.crash c), { m with temporaries := k }) := by
  rw [newReport, exec_bind, exec_get]
  dsimp only
  rw [exec_bind, exec_read]
  dsimp only
  rw [h]
  rfl

/-- What a new report does, on machines on which the same of the drawn names are taken and the same
have been tried. -/
theorem exec_newReport_alike (w : World) {m m' : Machine}
    (htmp : m'.files.find? ["tmp"] = m.files.find? ["tmp"])
    (hreports : ∀ k, m'.files.find? (reportPlace (w.draw k)) =
      m.files.find? (reportPlace (w.draw k)))
    (htemporaries : m'.temporaries = m.temporaries) :
    (∃ n k, exec newReport w m = (.ok (reportPath n),
        { m with files := withReport m.files n, temporaries := k }) ∧
      exec newReport w m' = (.ok (reportPath n),
        { m' with files := withReport m'.files n, temporaries := k }) ∧
      m.temporaries ≤ k ∧ IsFree m.files n ∧ ∃ j, w.draw j = n) ∨
    ∃ c k, exec newReport w m = (.error (.crash c), { m with temporaries := k }) ∧
      exec newReport w m' = (.error (.crash c), { m' with temporaries := k }) ∧
      m.temporaries ≤ k := by
  obtain ⟨r, k, h, h', hk, hfree⟩ := exists_drawReport htmp hreports maxDraws m.temporaries
  rw [← htemporaries] at h'
  cases r with
  | ok n =>
    exact .inl ⟨n, k, exec_newReport_of_ok h, exec_newReport_of_ok h', hk, hfree n rfl⟩
  | error c => exact .inr ⟨c, k, exec_newReport_of_error h, exec_newReport_of_error h', hk⟩

/-- A new report gets a name that nothing has yet, or the run crashes and no file has changed. -/
theorem exec_newReport (w : World) (m : Machine) :
    (∃ n k, exec newReport w m = (.ok (reportPath n),
        { m with files := withReport m.files n, temporaries := k }) ∧
      m.temporaries ≤ k ∧ IsFree m.files n) ∨
    ∃ c k, exec newReport w m = (.error (.crash c), { m with temporaries := k }) ∧
      m.temporaries ≤ k := by
  obtain ⟨n, k, h, -, hrest⟩ | ⟨c, k, h, -, hk⟩ :=
    exec_newReport_alike w (m := m) rfl (fun _ => rfl) rfl
  · exact .inl ⟨n, k, h, hrest.1, hrest.2.1⟩
  · exact .inr ⟨c, k, h, hk⟩

/-! ## Removing reports -/

/-- Whether a report is there or not, it is gone afterwards. -/
theorem remove_reportPath (htmp : fs.find? ["tmp"] = some .directory)
    (hfile : fs.find? (reportPlace n) ≠ some .directory) (directory : Place) :
    (fs.remove directory (reportPath n)).toOption.getD fs = fs.erase (reportPlace n) := by
  have hplace : fs.resolve directory (reportPath n) = .ok (reportPlace n) := by
    rw [resolve_reportPath_eq, htmp]
  rw [Files.remove_eq hplace]
  rcases hentry : fs.find? (reportPlace n) with - | (⟨content, executable⟩ | -)
  · exact (Files.erase_of_find? hentry).symm
  · rfl
  · exact absurd hentry hfile

theorem exec_removeReport (path : String) (w : World) (m : Machine) :
    ∃ notes, exec (removeReport path) w m = (.ok (), { m with
      files := (m.files.remove [] path).toOption.getD m.files
      notes := notes }) := by
  rw [removeReport, exec_bind, exec_get]
  dsimp only
  cases m.files.remove [] path with
  | ok files => exact ⟨m.notes, rfl⟩
  | error e => exact ⟨(.debug, "Could not remove " ++ path) :: m.notes, rfl⟩

/-! ## Files with a report -/

def HoldsReport (fs : Files) (n : Nat) (gs : Files) : Prop :=
  gs = fs ∨ ∃ content, gs = fs.put (reportPlace n) (.file content false)

theorem holdsReport_withReport (fs : Files) (n : Nat) : HoldsReport fs n (withReport fs n) :=
  .inr ⟨[], rfl⟩

theorem HoldsReport.find?_of_ne (h : HoldsReport fs n gs) {p : Place} (hp : p ≠ reportPlace n) :
    gs.find? p = fs.find? p := by
  obtain rfl | ⟨content, rfl⟩ := h
  · rfl
  · exact Files.find?_put_of_ne hp _

variable (hfree : IsFree fs n)
include hfree

theorem HoldsReport.resolve (h : HoldsReport fs n gs) (directory : Place) :
    gs.resolve directory (reportPath n) = .ok (reportPlace n) := by
  rw [resolve_reportPath_eq, h.find?_of_ne (reportPlace_ne_tmp n), hfree.directory]

theorem HoldsReport.find? (h : HoldsReport fs n gs) :
    gs = fs ∧ gs.find? (reportPlace n) = none ∨
      ∃ content, gs = fs.put (reportPlace n) (.file content false) ∧
        gs.find? (reportPlace n) = some (.file content false) := by
  obtain rfl | ⟨content, rfl⟩ := h
  · exact .inl ⟨rfl, hfree.fresh⟩
  · exact .inr ⟨content, rfl, Files.find?_put (reportPlace_ne_nil n) _⟩

theorem HoldsReport.write (h : HoldsReport fs n gs) (directory : Place) (content : Bytes) :
    gs.write directory (reportPath n) content =
      .ok (fs.put (reportPlace n) (.file content false)) := by
  rw [Files.write_eq (h.resolve hfree directory)]
  obtain ⟨rfl, hnone⟩ | ⟨content', rfl, hfile⟩ := h.find? hfree
  · rw [if_neg (by simp [hnone]), Files.runsAt, hnone]
  · rw [if_neg (by simp [hfile]), Files.runsAt_of_find? hfile, Files.put_put]

theorem HoldsReport.remove (h : HoldsReport fs n gs) (directory : Place) :
    (gs.remove directory (reportPath n)).toOption.getD gs = fs := by
  rw [Files.remove_eq (h.resolve hfree directory)]
  obtain ⟨rfl, hnone⟩ | ⟨content', rfl, hfile⟩ := h.find? hfree
  · rw [hnone]
    rfl
  · rw [hfile]
    exact Files.erase_put hfree.fresh _

/-- A command that is told the path of a report leaves the report or none. -/
theorem HoldsReport.leave (h : HoldsReport fs n gs) (w : World) {argv : List String}
    (hargv : argv.getLast? = some (reportPath n)) (b : Behaviour) :
    HoldsReport fs n (b.leave argv w gs) := by
  rw [Behaviour.leave, hargv]
  cases b.report with
  | none => exact h
  | written content =>
    dsimp only [Option.getD_some]
    rw [h.write hfree]
    exact .inr ⟨content, rfl⟩
  | removed => exact .inl (h.remove hfree w.place)

/-- A report is gone when it has been removed. -/
theorem exec_removeReport_of_holds {m : Machine} (h : HoldsReport fs n m.files) (w : World) :
    ∃ notes, exec (removeReport (reportPath n)) w m =
      (.ok (), { m with files := fs, notes := notes }) := by
  obtain ⟨notes, hexec⟩ := exec_removeReport (reportPath n) w m
  rw [h.remove hfree []] at hexec
  exact ⟨notes, hexec⟩

end Adapter
end ContainerDocs

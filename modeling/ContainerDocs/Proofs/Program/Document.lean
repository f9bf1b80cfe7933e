import ContainerDocs.Proofs.Output.Bytes
import ContainerDocs.Proofs.Program.Frame
import ContainerDocs.Proofs.System.TextFiles

/-!
# The document around a section

A report that is put into a document is the only text that changes, but not the only bytes: the
document is read with every line end as one line break, and it is written that way.

## Main statements

* `Generate.exists_write_of_intoDocument` — what a report leaves of the document that it is put
  into.
* `Generate.document_unifies_outside` — what a run leaves of the document.
* `Generate.document_changes_line_ends` — a run that does not leave it as it was.
-/

namespace ContainerDocs

open Run Encoding Lines

variable {w : World} {m m' : Machine}

namespace Section

/-- The region of the text that is read from bytes. -/
theorem map_region?_unify {content : Bytes} {s : String} (hs : decodeString content = .ok s) :
    (region? (Text.ofChars (unify s.toList)) "").map (Prod.map bytesOf bytesOf) =
      (outside? content "").map (Prod.map unifyBytes unifyBytes) := by
  have hplain : IsPlain "" := fun c hc => nomatch hc
  have hbytes : bytesOf (Text.ofChars (unify s.toList)) = unifyBytes content := by
    rw [bytesOf_unify]
    exact congrArg unifyBytes (bytesOf_of_decodeString hs)
  rw [← outside?_unifyBytes hplain, ← hbytes, outside?_bytesOf hplain]

theorem exists_region?_unify {content before after : Bytes} {s : String}
    (hs : decodeString content = .ok s) (h : outside? content "" = some (before, after)) :
    ∃ x y, region? (Text.ofChars (unify s.toList)) "" = some (x, y) ∧
      bytesOf x = unifyBytes before ∧ bytesOf y = unifyBytes after := by
  have htext := map_region?_unify hs
  rw [h] at htext
  obtain ⟨⟨x, y⟩, hxy, hparts⟩ := Option.map_eq_some_iff.1 htext
  exact ⟨x, y, hxy, Prod.mk.inj hparts⟩

end Section

namespace Generate

/-- A report is put into the region of the text that is read. -/
theorem exec_intoDocument {path : String} {report x y : Text} {content : Bytes} {s : String}
    (hread : m.files.read w.place path = .ok content) (hs : decodeString content = .ok s)
    (hregion : Section.region? (Text.ofChars (unify s.toList)) "" = some (x, y)) :
    exec (intoDocument path report) w m =
      exec (updateDocument path (x ++ Section.written "" report ++ y)) w m := by
  rw [intoDocument, exec_bind, readDocument?, exec_bind, exec_readText, Files.readText_eq hread, hs]
  have hinject : Section.inject (Text.ofString (String.ofList (unify s.toList))) "" report =
      .ok (x ++ Section.written "" report ++ y) := by
    rw [Section.inject, Text.ofString, String.toList_ofList, hregion]
  dsimp only [exec_pure]
  rw [hinject]

/-- A report that is put into a document is written with the bytes around its section, whose line
ends are unified. -/
theorem exists_write_of_intoDocument {path : String} {report : Text}
    {content before after : Bytes} {s : String} (hread : m.files.read w.place path = .ok content)
    (hs : decodeString content = .ok s)
    (hregion : Section.outside? content "" = some (before, after))
    (h : exec (intoDocument path report) w m = (.ok (), m')) :
    m.files.write w.place path (unifyBytes before ++ bytesOf (Section.written "" report) ++
      unifyBytes after) = .ok m'.files := by
  obtain ⟨x, y, hxy, hx, hy⟩ := Section.exists_region?_unify hs hregion
  rw [exec_intoDocument hread hs hxy] at h
  obtain ⟨_, m₂, hwrite, hnote⟩ := exec_bind_eq_ok.1 h
  cases hnote
  obtain ⟨-, files, hfiles, rfl⟩ := exec_writeText_eq_ok_iff.1 hwrite
  rw [← hx, ← hy, ← bytesOf_append, ← bytesOf_append]
  exact hfiles

theorem bytesOf_written (name : String) (report : Text) :
    ∃ inside, bytesOf (Section.written name report) =
      encodeString (Section.beginMarker name) ++ inside ++
        encodeString (Section.endMarker name) := by
  refine ⟨bytesOf (("\n" : Text) ++ Section.body report ++ ("\n" : Text)), ?_⟩
  simp only [Section.written, bytesOf_append, bytesOf_ofString, List.append_assoc]

/-- A run that puts a report into a document touches no other file, and keeps every byte of the
document outside of the section except for line ends: `\r\n` and `\r` become `\n`. So the bytes
before the section and those after it stay exactly if no `\r` is among them. -/
theorem document_unifies_outside {o : GenerateOptions} {content before after : Bytes}
    (hwrites : o.dryRun = false)
    (hformat : OutputPath.isOwnFile (Selection.resolve o.template none).format = false)
    (hread : m.files.read w.place o.output = .ok content)
    (hutf8 : (decodeString content).isOk = true)
    (hregion : Section.outside? content "" = some (before, after))
    (htools : o.image ≠ "" → w.WritesReportsOnly)
    (h : exec (document o) w m = (.ok (), m')) :
    (∃ before' inside after',
      m'.files.read w.place o.output = .ok (before' ++ (encodeString (Section.beginMarker "") ++
        inside ++ encodeString (Section.endMarker "")) ++ after') ∧
      before' = unifyBytes before ∧ (before' = before ↔ 13 ∉ before) ∧
      after' = unifyBytes after ∧ (after' = after ↔ 13 ∉ after)) ∧
    ∀ p, m.files.resolve w.place o.output ≠ .ok p → m'.files.find? p = m.files.find? p := by
  obtain ⟨s, hs⟩ := exists_of_isOk hutf8
  obtain ⟨place, hplace⟩ := Files.exists_resolve_of_read hread
  have halone : o.image = "" ∨ w.LeavesAlone fun _ => True :=
    or_iff_not_imp_left.2 fun himage => (htools himage).leavesAlone _
  obtain ⟨report, m₁, hkeeps, hinto⟩ := exists_report_of_document hwrites hformat halone h
  have hread₁ := (hkeeps.read hplace trivial).trans hread
  have hwrite := exists_write_of_intoDocument hread₁ hs hregion hinto
  obtain ⟨inside, hinside⟩ := bytesOf_written "" report
  constructor
  · refine ⟨unifyBytes before, inside, unifyBytes after, ?_, rfl, unifyBytes_eq_self_iff, rfl,
      unifyBytes_eq_self_iff⟩
    rw [← hinside]
    exact Files.read_of_write hwrite
  · intro p hp
    have hwritten : m₁.files.Keeps (· ≠ place) m'.files := by
      refine .of_write hwrite fun q hq => ?_
      rw [hkeeps.resolve hplace] at hq
      exact fun hne => hne (Except.ok.inj hq).symm
    have hne : p ≠ place := fun hpp => hp (hpp ▸ hplace)
    exact (hwritten.find?_eq p hne).trans (hkeeps.find?_eq p trivial)

/-- A run on a document with a byte order mark and mixed line ends, for an image that one tool
writes a report about. -/
theorem document_unifies_outside_of_mixed :
    let w : World := {
      respond := fun _ command =>
        if command = ["/usr/bin/dive", "app:1", "--json", Adapter.reportPath 0] then
          .runs { report := .written [0] }
        else if command = ["docker", "inspect", "--type=image", "app:1"] then .runs {}
        else .fails (.missing "")
      find? := fun name =>
        if name = "docker" ∨ name = "dive" then some ("/usr/bin/" ++ name) else none
      environment := []
      directory := "/"
      now := fun _ => ⟨⟨2024, 1, 1⟩, 0, 0, 0, 0, none⟩ }
    let content := encodeString
      "\uFEFFé\r\n\r<!-- BEGIN: dock-docs -->old<!-- END: dock-docs -->\r\nEnd\n"
    let m : Machine := { files := ⟨[(["tmp"], .directory),
      (["Dockerfile"], .file (encodeString "FROM a\nARG A=1\n") false),
      (["README.md"], .file content false), (["t.tmpl"], .file (encodeString "new") false)]⟩ }
    let o : GenerateOptions := { image := "app:1", template := some "t.tmpl" }
    (exec (document o) w m).1.isOk = true ∧
      (∃ inside, (exec (document o) w m).2.files.read w.place o.output =
        .ok (encodeString "\uFEFFé\n\n" ++ (encodeString (Section.beginMarker "") ++ inside ++
          encodeString (Section.endMarker "")) ++ encodeString "\nEnd\n")) ∧
      (exec (document o) w m).2.files.find? ["t.tmpl"] = m.files.find? ["t.tmpl"] := by
  intro w content m o
  have hok : (exec (document o) w m).1.isOk = true := by decide +kernel
  obtain ⟨⟨⟩, hrun⟩ := exists_of_isOk hok
  have hplace : m.files.resolve w.place o.output = .ok ["README.md"] := by decide +kernel
  have htools : w.WritesReportsOnly := by
    intro before argv b hb
    dsimp only [w] at hb
    split_ifs at hb with hdive hinspect
    · exact .inr ⟨0, by rw [hdive]; rfl⟩
    · cases hb
      exact .inl rfl
  have hread : m.files.read w.place o.output = .ok content := by decide +kernel
  have hregion : Section.outside? content "" =
      some (encodeString "\uFEFFé\r\n\r", encodeString "\r\nEnd\n") := by decide +kernel
  obtain ⟨⟨before', inside, after', hnew, hbefore, -, hafter, -⟩, hothers⟩ :=
    document_unifies_outside rfl (by decide +kernel) hread (by decide +kernel) hregion
      (fun _ => htools) (exec_eq_of_fst hrun)
  refine ⟨hok, ⟨inside, ?_⟩, hothers _ ?_⟩
  · have hstart : before' = encodeString "\uFEFFé\n\n" := hbefore.trans (by decide +kernel)
    have hend : after' = encodeString "\nEnd\n" := hafter.trans (by decide +kernel)
    rw [hnew, hstart, hend]
  · rw [hplace]
    decide +kernel

/-- Windows line ends outside of a section do not survive a run. -/
theorem document_changes_line_ends :
    let w : World := {
      respond := fun _ _ => .fails (.missing "")
      find? := fun _ => none
      environment := []
      directory := "/"
      now := fun _ => ⟨⟨2024, 1, 1⟩, 0, 0, 0, 0, none⟩ }
    let content := encodeString
      "# App\r\n<!-- BEGIN: dock-docs -->\r\n<!-- END: dock-docs -->\r\nEnd\r\n"
    let m : Machine := { files := ⟨[
      (["Dockerfile"], .file (encodeString "FROM a\nARG A=1\n") false),
      (["README.md"], .file content false), (["t.tmpl"], .file (encodeString "new") false)]⟩ }
    let o : GenerateOptions := { template := some "t.tmpl" }
    let after := (exec (document o) w m).2.files.read w.place "README.md"
    OutputPath.isOwnFile (Selection.resolve o.template none).format = false ∧
      (decodeString content).isOk = true ∧ (exec (document o) w m).1.isOk = true ∧
      Section.outside? content "" = some (encodeString "# App\r\n", encodeString "\r\nEnd\r\n") ∧
      after.toOption.bind (Section.outside? · "") =
        some (encodeString "# App\n", encodeString "\nEnd\n") := by
  decide +kernel

end Generate
end ContainerDocs

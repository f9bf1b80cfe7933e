import ContainerDocs.Proofs.Output.Paths
import ContainerDocs.Proofs.Program.Frame

/-!
# Runs that stop

A run for one Dockerfile writes at its very end, so that it changes nothing when it stops. A run
with a configuration has written the files of the sections that it is done with, but the document
comes last.

## Main definitions

* `Generate.documentTarget?`, `Generate.sectionTarget?` — the file that is to be written next.
* `Generate.NotOwn` — a place that is not that of the file of a section.
* `Generate.StopsAfter` — which sections a run is done with when it stops.

## Main statements

* `Generate.keeps_sections` — the files that sections touch.
* `Generate.exists_stopping_section` — sections stop at one of them.
* `Generate.run_stopped` — what a run leaves that stops.
-/

namespace ContainerDocs

open Run

variable {w : World} {m m' m₁ : Machine} {stop : Stop} {kept free : Place → Prop} {base : Files}

namespace Generate

variable {o : GenerateOptions} {c : Config} {directory : String}

/-! ## One Dockerfile -/

/-- The path at which a file is to be written; a dry run writes none. -/
def target? (o : GenerateOptions) (path : String) : Option String :=
  if o.dryRun then none else some path

/-- The file that the run for one Dockerfile writes, unless it prints its report. -/
def documentTarget? (o : GenerateOptions) : Option String :=
  let format := (Selection.resolve o.template none).format
  target? o (if OutputPath.isOwnFile format then OutputPath.ofReport o.output format else o.output)

theorem stopsKeeping_intoDocument (path : String) (report : Text) :
    StopsKeeping kept (some path) w (intoDocument path report) := by
  have hread : Keeps kept w (readDocument? path) := by
    refine (keeps_readText path).bind fun r => ?_
    split
    · exact (ignores_pure _).keeps
    · exact (Ignores.ite (ignores_pure _) (ignores_fail _)).keeps
  have hprint : ∀ line, StopsKeeping kept (some path) w (do Run.warn line; Run.printLine report) :=
    fun line => .after (ignores_note _ _).keeps fun _ => (keeps_printLine _).stopsKeeping
  refine .after hread fun content => ?_
  split
  · exact hprint _
  · split
    · exact hprint _
    · exact stopsKeeping_writeText _ _ _

theorem stopsKeeping_document (htools : o.image = "" ∨ w.LeavesAlone kept) :
    StopsKeeping kept (documentTarget? o) w (document o) := by
  rw [document_eq]
  refine .after (keeps_documentReport o htools) fun report => ?_
  rw [deliverDocument, documentTarget?, target?]
  split_ifs
  · exact (keeps_printLine _).stopsKeeping
  · exact stopsKeeping_writeText _ _ _
  · exact stopsKeeping_intoDocument _ _

/-! ## Sections -/

def NotOwn (w : World) (fs : Files) (paths : List String) (p : Place) : Prop :=
  ∀ path ∈ paths, fs.resolve w.place path ≠ .ok p

theorem keeps_printReport (path : String) (report : Text) : Keeps kept w
    (do Run.printLine ("--- " ++ path ++ " ---"); Run.printLine report) :=
  (keeps_printLine _).bind fun _ => keeps_printLine _

/-- The file of a section is the only one that is touched when its report is delivered. -/
theorem keeps_deliver {index : Nat} {s : Config.Section} {content content' : Option Text}
    {report : Text}
    (h : exec (deliver o c index s content report) w m = (.ok content', m')) :
    m.files.Keeps (NotOwn w m.files (ownPath? o c index s).toList) m'.files := by
  rw [deliver] at h
  cases hown : ownPath? o c index s with
  | none =>
    rw [hown] at h
    exact (keeps_share c _ _ _).of_exec h
  | some path =>
    rw [hown] at h
    obtain ⟨⟨⟩, m₁, hfile, hpure⟩ := exec_bind_eq_ok.1 h
    cases hpure
    rw [ownFile] at hfile
    split_ifs at hfile
    · exact (keeps_printReport path report).of_exec hfile
    · obtain ⟨bytes, files, -, hwrite, rfl⟩ := exists_write_of_info hfile
      exact .of_write hwrite fun p hp hkept => hkept path (by simp) hp

/-- The file that is to be written for the next section, or the document when there is none left. -/
def sectionTarget? (o : GenerateOptions) (c : Config) (index : Nat) :
    List Config.Section → Option String
  | [] => target? o c.output
  | s :: _ => (ownPath? o c index s).bind (target? o)

theorem stopsKeeping_deliver (index : Nat) (s : Config.Section) (rest : List Config.Section)
    (content : Option Text) (report : Text) :
    StopsKeeping kept (sectionTarget? o c index (s :: rest)) w
      (deliver o c index s content report) := by
  rw [deliver, sectionTarget?]
  cases ownPath? o c index s with
  | none => exact (keeps_share c _ _ _).stopsKeeping
  | some path =>
    refine StopsKeeping.bind_pure ?_ fun _ => content
    rw [ownFile, Option.bind_some, target?]
    split_ifs
    · exact (keeps_printReport _ report).stopsKeeping
    · exact stopsKeeping_writeText _ _ _

theorem keeps_sectionStep (hw : w.WritesReportsOnly) {index : Nat} {s : Config.Section}
    {content content' : Option Text}
    (h : exec (sectionStep o c directory index content s) w m = (.ok content', m')) :
    m.files.Keeps (NotOwn w m.files (ownPath? o c index s).toList) m'.files := by
  obtain ⟨report, m₁, hreport, h⟩ := exec_bind_eq_ok.1 h
  have hkeeps : m.files.Keeps (NotOwn w m.files (ownPath? o c index s).toList) m₁.files :=
    (keeps_reportOf (hw.leavesAlone _) index).of_exec hreport
  cases report with
  | none =>
    cases h
    exact hkeeps
  | some report =>
    refine hkeeps.trans ((keeps_deliver h).mono fun p hp path hpath hplace => ?_)
    exact hp path hpath (hkeeps.resolve_eq_ok.1 hplace)

theorem stopsKeeping_sectionStep (hw : w.LeavesAlone kept) (index : Nat) (content : Option Text)
    (s : Config.Section) (rest : List Config.Section) :
    StopsKeeping kept (sectionTarget? o c index (s :: rest)) w
      (sectionStep o c directory index content s) := by
  refine .after (keeps_reportOf hw index) fun report => ?_
  split
  · exact (ignores_pure _).keeps.stopsKeeping
  · exact stopsKeeping_deliver index s rest content _

/-- Sections that are done with have touched the files that are their own. -/
theorem keeps_sections (hw : w.WritesReportsOnly) {index : Nat} {ss : List Config.Section}
    {content content' : Option Text}
    (h : exec (sectionsOf o c directory index content ss) w m = (.ok content', m')) :
    m.files.Keeps (NotOwn w m.files (ownPaths o c index ss)) m'.files := by
  induction ss generalizing index content m with
  | nil =>
    cases h
    exact .refl _ _
  | cons s rest ih =>
    rw [sectionsOf_cons] at h
    obtain ⟨content₁, m₁, hstep, hrest⟩ := exec_bind_eq_ok.1 h
    have hkeeps := keeps_sectionStep hw hstep
    have hfirst : ∀ p, NotOwn w m.files (ownPaths o c index (s :: rest)) p →
        NotOwn w m.files (ownPath? o c index s).toList p := fun p hp path hpath =>
      hp path (List.mem_append_left _ hpath)
    refine (hkeeps.mono hfirst).trans ((ih hrest).mono fun p hp path hpath hplace => ?_)
    exact hp path (List.mem_append_right _ hpath) (hkeeps.resolve_eq_ok.1 hplace)

/-- Sections stop at one of them, and what comes before it is done with. -/
theorem exists_stopping_section {index : Nat} {ss : List Config.Section} {content : Option Text}
    (h : exec (sectionsOf o c directory index content ss) w m = (.error stop, m')) :
    ∃ done s rest content' m₁, ss = done ++ s :: rest ∧
      exec (sectionsOf o c directory index content done) w m = (.ok content', m₁) ∧
      exec (sectionStep o c directory (index + done.length) content' s) w m₁ =
        (.error stop, m') := by
  induction ss generalizing index content m with
  | nil => cases h
  | cons s rest ih =>
    rw [sectionsOf_cons, exec_bind] at h
    rcases hstep : exec (sectionStep o c directory index content s) w m with ⟨e | content₁, m₁⟩ <;>
      rw [hstep] at h
    · cases h
      exact ⟨[], s, rest, content, m, rfl, rfl, hstep⟩
    · obtain ⟨done, s', rest', content', m₂, rfl, hdone, hstop⟩ := ih h
      refine ⟨s :: done, s', rest', content', m₂, rfl, ?_, ?_⟩
      · rw [sectionsOf_cons]
        exact exec_bind_eq_ok.2 ⟨content₁, m₁, hstep, hdone⟩
      · rw [List.length_cons, Nat.add_comm done.length, ← Nat.add_assoc]
        exact hstop

/-! ## Runs -/

/-- With a configuration, a run is done with some of the sections and then stops, in the next
section or, if there is none, at the end. -/
structure StopsAfter (o : GenerateOptions) (c : Config) (directory : String) (w : World)
    (m : Machine) (stop : Stop) (done rest : List Config.Section) : Prop where
  sections_eq : c.sections = done ++ rest
  goes : (exec (catching (sectionsOf o c directory 0 none done)) w m).1.isOk = true
  stops : ∀ s ∈ rest.head?,
    (exec (catching (sectionsOf o c directory 0 none (done ++ [s]))) w m).1 = .error stop

theorem stopsKeeping_finish (content : Option Text) :
    StopsKeeping kept (target? o c.output) w (finish o c content) := by
  cases content with
  | none => exact (ignores_pure ()).keeps.stopsKeeping
  | some content =>
    rw [finish, target?]
    split_ifs
    · exact (keeps_printLine _).stopsKeeping
    · exact stopsKeeping_writeText _ _ _

/-- Where a run with a configuration stops after it has been read. -/
theorem exists_stopsAfter (hw : w.WritesReportsOnly)
    (h : exec (catching (sectionsOf o c directory 0 none c.sections) >>= finish o c) w m =
      (.error stop, m')) :
    ∃ done rest, StopsAfter o c directory w m stop done rest ∧
      LeavesOff w stop (NotOwn w m.files (ownPaths o c 0 done))
        (sectionTarget? o c done.length rest) m.files m'.files := by
  have hcatching : ∀ ss, (exec (catching (sectionsOf o c directory 0 none ss)) w m).1 =
      (exec (sectionsOf o c directory 0 none ss) w
        { m with catching := true, cancelled := false }).1 := fun ss => by rw [exec_catching]
  rw [exec_bind, exec_catching] at h
  rcases hsections : exec (sectionsOf o c directory 0 none c.sections) w
    { m with catching := true, cancelled := false } with ⟨e | content, m₁⟩ <;> rw [hsections] at h
  · cases h
    obtain ⟨done, s, rest, content, m₂, hsplit, hdone, hstop⟩ := exists_stopping_section hsections
    rw [Nat.zero_add] at hstop
    have hkept := keeps_sections hw hdone
    refine ⟨done, s :: rest, ⟨hsplit, ?_, ?_⟩, .after hkept
      (stopsKeeping_sectionStep (hw.leavesAlone _) _ _ _ rest m₂ m₁ stop hstop)⟩
    · rw [hcatching, hdone]
      rfl
    · intro s' hs'
      cases hs'
      rw [hcatching, sectionsOf_append, exec_bind, hdone]
      dsimp only
      rw [sectionsOf_cons, exec_bind, Nat.zero_add, hstop]
  · have hkept := keeps_sections hw hsections
    have hfinish : exec (finish o c content) w { m₁ with catching := false } = (.error stop, m') :=
      h
    have hstops : StopsKeeping (NotOwn w m.files (ownPaths o c 0 c.sections)) (target? o c.output) w
        (finish o c content) := stopsKeeping_finish content
    have hleaves := hstops _ _ _ hfinish
    refine ⟨c.sections, [], ⟨by simp, ?_, fun s hs => nomatch hs⟩, .after hkept hleaves⟩
    rw [hcatching, hsections]
    rfl

/-- The place of the document is not that of the file of a section, unless a marker with a slash
leads there. -/
theorem notOwn_of_markers {fs : Files} {p : Place} {ss : List Config.Section}
    (hmarkers : ∀ s ∈ ss, '/' ∉ s.marker.toList) (hp : fs.resolve w.place c.output = .ok p)
    (index : Nat) : NotOwn w fs (ownPaths o c index ss) p := by
  intro path hpath
  obtain ⟨s, hs, i, format, hown⟩ := eq_ofSection_of_mem_ownPaths hpath
  rw [hown]
  exact OutputPath.resolve_ofSection_ne (hmarkers s hs) hp

theorem mem_ownPaths_of_sectionTarget? {index : Nat} {s : Config.Section}
    {rest : List Config.Section} {path : String}
    (h : path ∈ sectionTarget? o c index (s :: rest)) : path ∈ ownPaths o c index (s :: rest) := by
  obtain ⟨path', hown, htarget⟩ := Option.mem_bind_iff.1 h
  rw [target?] at htarget
  split_ifs at htarget
  · cases htarget
  · cases htarget
    exact List.mem_append_left _ (Option.mem_toList.2 hown)

/-- A run that stops has changed nothing, apart from the files that belong to the sections that come
before the one it stops in. In particular the document stays, unless a marker with a slash leads the
file of a section there. If the text that the run was to write when it stopped has no bytes, the
file for the text may be empty; this is the document only if all sections are done with. -/
theorem run_stopped (hw : w.WritesReportsOnly) (h : exec (run o) w m = (.error stop, m')) :
    (Selection.filled o.config = none →
      LeavesOff w stop (fun _ => True) (documentTarget? o) m.files m'.files) ∧
    ∀ path, Selection.filled o.config = some path →
      (∀ e m₁, exec (opening path) w m = (.error e, m₁) → m'.files = m.files) ∧
      ∀ c directory m₁, exec (opening path) w m = (.ok (c, directory), m₁) →
        ∃ done rest, StopsAfter o c directory w m₁ stop done rest ∧
          LeavesOff w stop (NotOwn w m.files (ownPaths o c 0 done))
            (sectionTarget? o c done.length rest) m.files m'.files ∧
          ((∀ s ∈ c.sections, '/' ∉ s.marker.toList) →
            ∀ p, m.files.resolve w.place c.output = .ok p →
              m'.files.find? p = m.files.find? p ∨ rest = [] ∧ (∃ e, stop = .crash (.encode e)) ∧
                ∃ executable, m'.files.find? p = some (.file [] executable)) := by
  rw [run] at h
  cases hconfig : Selection.filled o.config with
  | none =>
    rw [hconfig] at h
    refine ⟨fun _ => ?_, by rintro _ ⟨⟩⟩
    exact stopsKeeping_document (.inr (hw.leavesAlone _)) m m' stop h
  | some path =>
    rw [hconfig] at h
    dsimp only at h
    rw [fromConfig_eq, exec_bind] at h
    refine ⟨by rintro ⟨⟩, ?_⟩
    rintro _ ⟨⟩
    have hfiles : (exec (opening path) w m).2.files = m.files := by rw [exec_opening_snd]
    rcases hopen : exec (opening path) w m with ⟨e | ⟨c, directory⟩, m₁⟩ <;>
      rw [hopen] at h hfiles <;> dsimp only at hfiles
    · cases h
      exact ⟨fun _ _ _ => hfiles, by rintro c directory m₁ ⟨⟩⟩
    · obtain ⟨done, rest, hstops, hleaves⟩ := exists_stopsAfter hw h
      rw [hfiles] at hleaves
      refine ⟨by rintro e m₂ ⟨⟩, ?_⟩
      rintro c' directory' m₂ ⟨⟩
      refine ⟨done, rest, hstops, hleaves, fun hmarkers p hp => ?_⟩
      rw [hstops.sections_eq] at hmarkers
      have hdone : ∀ s ∈ done, '/' ∉ s.marker.toList :=
        fun s hs => hmarkers s (List.mem_append_left rest hs)
      obtain hsame | ⟨⟨path, hpath, hplace⟩, hempty⟩ :=
        hleaves.find?_eq_or (notOwn_of_markers hdone hp 0)
      · exact .inl hsame
      · refine .inr ⟨?_, hempty⟩
        cases rest with
        | nil => rfl
        | cons s rest =>
          have hrest : ∀ s' ∈ s :: rest, '/' ∉ s'.marker.toList :=
            fun s' hs' => hmarkers s' (List.mem_append_right done hs')
          exact absurd hplace (notOwn_of_markers hrest hp done.length path
            (mem_ownPaths_of_sectionTarget? hpath))

/-- A run that stops in its second section, which has no Dockerfile, once it has written the file of
the first one. -/
theorem run_stopped_in_second :
    let w : World := {
      respond := fun _ _ => .fails (.missing "")
      find? := fun _ => none
      environment := []
      directory := "/"
      now := fun _ => ⟨⟨2024, 1, 1⟩, 0, 0, 0, 0, none⟩ }
    let config := "template: \x7bpath: t.html\x7d\nsections: [\x7b\x7d, \x7bsource: b\x7d]"
    let m : Machine := { files := ⟨[(["c"], .file (Encoding.encodeString config) false),
      (["Dockerfile"], .file [] false), (["t.html"], .file [] false),
      (["README.md"], .file [32] false)]⟩ }
    let o : GenerateOptions := { config := some "c" }
    let m' := (exec (run o) w m).2
    w.WritesReportsOnly ∧
      (exec (run o) w m).1 = .error (.failure (.dockerfile "/b" (.missing "/b"))) ∧
      m'.files.find? ["README.md"] = some (.file [32] false) ∧
      m'.files.find? ["README-section0.html"] = some (.file [] false) := by
  intro w config m o
  -- The machine after the run gets no name: to look behind one, the kernel would run the program.
  dsimp only
  have htools : w.WritesReportsOnly := fun _ _ _ hb => by cases hb
  let c : Config := {
    output := "/README.md", template := some { path := some "/t.html" }
    sections := [{}, { source := some "/b" }] }
  have hopens : exec (opening "c") w m = (.ok (c, "/"), _) :=
    exec_opening_of_toOption (by decide +kernel)
  have hexec := exec_run_of_opening o rfl hopens
  obtain ⟨hstop, hwritten⟩ :
      (exec (run o) w m).1 = .error (.failure (.dockerfile "/b" (.missing "/b"))) ∧
      (exec (run o) w m).2.files.find? ["README-section0.html"] = some (.file [] false) := by
    rw [hexec]
    decide +kernel
  obtain ⟨-, hconfig⟩ := run_stopped htools (exec_eq_of_fst hstop)
  obtain ⟨done, rest, -, -, hdocument⟩ := (hconfig "c" rfl).2 c "/" _ hopens
  refine ⟨htools, hstop, ?_, hwritten⟩
  obtain hsame | ⟨-, ⟨e, ⟨⟩⟩, -⟩ := hdocument (by decide +kernel) ["README.md"] (by decide +kernel)
  exact hsame.trans (by decide +kernel)

end Generate
end ContainerDocs

import ContainerDocs.Proofs.System.Ignore
import ContainerDocs.Proofs.Tool.ReportFile

/-!
# What tools keep

A tool starts a command, and the layer tool makes a file for its report and removes it again. The
name of the report is new, so that nothing else is touched: tools keep what their commands leave
alone.

## Main definitions

* `World.WritesReportsOnly` — commands write nothing but reports of the layer tool.
* `World.LeavesAlone` — a command that is not told the path of a report spares the places of a
  class.
* `Adapter.Overlooks` — places that the making of reports does not look at.

## Main statements

* `Adapter.ignores_withReport` — a step with a report that is removed again.
* `Adapter.ignores_locate`, `Adapter.ignores_run` — what the search for a tool and its run keep.
-/

namespace ContainerDocs

open Run

/-! ## Worlds that leave places alone -/

/-- The commands of a world write nothing but reports of the layer tool. -/
def World.WritesReportsOnly (w : World) : Prop :=
  ∀ before argv b, w.respond before argv = .runs b →
    b.report = .none ∨ ∃ n, argv.getLast? = some (Adapter.reportPath n)

/-- The commands of a world spare the places of a class, unless they are told the path of a report
of the layer tool. -/
def World.LeavesAlone (w : World) (kept : Place → Prop) : Prop :=
  ∀ command, (∀ n, command.getLast? ≠ some (Adapter.reportPath n)) → w.Spares kept command

theorem World.WritesReportsOnly.leavesAlone {w : World} (h : w.WritesReportsOnly)
    (kept : Place → Prop) : w.LeavesAlone kept := by
  intro command hcommand before b hb hreport
  obtain hnone | ⟨n, hlast⟩ := h before command b hb
  · exact absurd hnone hreport
  · exact absurd hlast (hcommand n)

/-- The places of a class are kept, and neither the directory of reports nor one of the names that
are drawn for reports is among them, which are looked at when a report is made. -/
structure Adapter.Overlooks (w : World) (kept free : Place → Prop) : Prop where
  kept : ∀ p, free p → kept p
  directory : ¬ free ["tmp"]
  reports : ∀ k, ¬ free (Adapter.reportPlace (w.draw k))

theorem Adapter.overlooks_none (w : World) (kept : Place → Prop) :
    Overlooks w kept fun _ => False :=
  ⟨fun _ h => h.elim, fun h => h, fun _ h => h⟩

section Ignores

variable {kept free : Place → Prop} {w : World}

/-! ## Finding tools -/

namespace Tools

theorem ignores_setting? (name : String) : Ignores kept free w (setting? name) :=
  ignores_read.bind fun _ => ignores_pure _

theorem ignores_directory : Ignores kept free w directory := by
  refine (ignores_setting? _).bind fun d => ?_
  split
  · exact ignores_pure _
  · exact (ignores_setting? _).bind fun _ => ignores_pure _

/-- Whether a file can be run is the same on machines that are alike. -/
theorem ignores_lookup? (name : String) : Ignores kept free w (lookup? name) := by
  refine ignores_read.bind fun w' => ?_
  split
  · exact ignores_pure _
  · refine ignores_directory.bind fun d => ?_
    extract_lets path
    refine ignores_get_bind (fun m m' hm => ?_) fun m => ignores_place.bind fun here => ?_
    · simp only [hm.files.isProgram_eq]
    · exact .ite (ignores_pure _) (ignores_pure _)

theorem ignores_runtime? : Ignores kept free w runtime? :=
  ignores_read.bind fun _ => ignores_pure _

end Tools

/-! ## Running tools -/

namespace Adapter

variable {image : String} {n : Nat}

theorem ignores_locate (a : Adapter) : Ignores kept free w a.locate := by
  refine .ite (Tools.ignores_runtime?.bind fun _ => ignores_pure _) ?_
  refine (Tools.ignores_lookup? _).bind fun found => ?_
  split <;> exact ignores_pure _

theorem ignores_program (a : Adapter) : Ignores kept free w a.program := by
  rw [program]
  split
  · exact ignores_pure _
  · exact ignores_fail _

theorem ignores_report {α : Type} (r : Except ReportError α) : Ignores kept free w (report r) :=
  ignores_ofExcept _

/-! ### Reports of the layer tool -/

def Beside (kept : Place → Prop) (n : Nat) (p : Place) : Prop := kept p ∧ p ≠ reportPlace n

theorem keeps_withReport {fs : Files} (hn : IsFree fs n) :
    fs.Keeps (Beside kept n) (withReport fs n) := by
  refine ⟨fun p hp => Files.find?_put_of_ne hp.2 _, fun p => ?_⟩
  by_cases hp : p = reportPlace n
  · rw [hp, hn.fresh, withReport, Files.find?_put (reportPlace_ne_nil n)]
    simp
  · rw [withReport, Files.find?_put_of_ne hp]

/-- What is kept beside a new report is kept altogether when the report is removed. -/
theorem keeps_erase_of_beside {fs gs : Files} (hn : IsFree fs n) (h : fs.Keeps (Beside kept n) gs) :
    fs.Keeps kept (gs.erase (reportPlace n)) := by
  have herase : (gs.erase (reportPlace n)).find? (reportPlace n) = none :=
    Files.find?_erase (reportPlace_ne_nil n)
  refine ⟨fun p hp => ?_, fun p => ?_⟩
  · by_cases hpn : p = reportPlace n
    · rw [hpn, herase, hn.fresh]
    · exact (Files.find?_erase_of_ne hpn).trans (h.find?_eq p ⟨hp, hpn⟩)
  · by_cases hpn : p = reportPlace n
    · rw [hpn, herase, hn.fresh]
    · rw [Files.find?_erase_of_ne hpn, h.directory]

/-- A report is removed from files with the same directories, whether it is still there or not. -/
theorem exec_removeReport_of_keeps {fs : Files} {m : Machine} (hn : IsFree fs n)
    (h : fs.Keeps kept m.files) (w : World) :
    ∃ notes, exec (removeReport (reportPath n)) w m =
      (.ok (), { m with files := m.files.erase (reportPlace n), notes := notes }) := by
  have htmp : m.files.find? ["tmp"] = some .directory := (h.directory _).2 hn.directory
  have hfile : m.files.find? (reportPlace n) ≠ some .directory := by
    intro hdirectory
    rw [h.directory, hn.fresh] at hdirectory
    cases hdirectory
  obtain ⟨notes, hexec⟩ := exec_removeReport (reportPath n) w m
  exact ⟨notes, by rw [hexec, remove_reportPath htmp hfile]⟩

theorem spares_beside {command : List String} (h : command.getLast? = some (reportPath n)) :
    w.Spares (Beside kept n) command := by
  intro before b _ _ fs q hq
  rw [h] at hq
  exact fun hkept => hkept.2 (resolve_reportPath hq)

section LeavesAlone

variable (hw : w.LeavesAlone kept)
include hw

theorem beside_leavesAlone : w.LeavesAlone (Beside kept n) :=
  fun command hcommand before b hb hreport fs q hq hkept =>
    hw command hcommand before b hb hreport fs q hq hkept.1

/-- A command that is not told the path of a report keeps what is left alone. -/
theorem ignores_call (hfree : ∀ p, free p → kept p) {command : List String} {last : String}
    (hlast : command.getLast? = some last) (hreport : ∀ n, last ≠ reportPath n)
    (timeout : Binary64) (watching : Bool) (environment : Option (List (String × String)))
    (combined : Bool) :
    Ignores kept free w (Run.command command timeout watching environment combined) := by
  have hspares : w.Spares kept command :=
    hw command fun n hn => hreport n (Option.some.inj (hlast.symm.trans hn))
  exact ignores_command hfree hspares timeout watching environment combined

theorem ignores_machineSocket (hfree : ∀ p, free p → kept p) :
    Ignores kept free w machineSocket := by
  have hinspect : Ignores kept free w
      (command socketCommand machineTimeout false none false) :=
    ignores_call hw hfree rfl (ne_reportPath (by decide)) _ _ _ _
  refine Ignores.bind (Ignores.tryCatch (hinspect.map _) fun e => ?_) fun output => ?_
  · split
    · exact ignores_pure _
    · exact ignores_throw _
  · split
    · exact ignores_pure _
    · refine ignores_read.bind fun w' => ?_
      split
      · exact ignores_throw _
      · exact ignores_pure _
      · exact ignores_ofExcept _

theorem ignores_socketEnvironment (hfree : ∀ p, free p → kept p) :
    Ignores kept free w socketEnvironment := by
  refine ignores_read.bind fun w' => ?_
  refine (Tools.ignores_setting? _).bind fun host => ?_
  refine .ite (ignores_pure _) (((ignores_machineSocket hw hfree).map _).bind fun socket => ?_)
  exact .ite (ignores_pure _) (ignores_read.bind fun _ => ignores_pure _)

end LeavesAlone

variable (hfree : Overlooks w kept free)
include hfree

/-- A step with a report that is removed again keeps what the step keeps beside the report: the name
of the report was new, and nothing has it afterwards. -/
theorem ignores_withReport {inner : String → Run Bytes}
    (h : ∀ k, Ignores (Beside kept (w.draw k)) free w (inner (reportPath (w.draw k)))) :
    Ignores kept free w (newReport >>= fun path => attempt (inner path) >>= fun outcome =>
      removeReport path >>= fun _ => Run.ofExcept outcome) := by
  intro m m' hm
  rw [exec_bind, exec_bind]
  obtain ⟨n, k, hnew, hnew', -, hn, j, rfl⟩ | ⟨c, k, hnew, hnew', -⟩ :=
    exec_newReport_alike w (hm.files.find?_eq _ hfree.directory)
      (fun k => hm.files.find?_eq _ (hfree.reports k)) hm.temporaries
  · rw [hnew, hnew']
    dsimp only
    have hmade : Machine.Alike free
        { m with files := withReport m.files (w.draw j), temporaries := k }
        { m' with files := withReport m'.files (w.draw j), temporaries := k } :=
      ⟨hm.files.put (reportPlace_ne_nil _) _, hm.clock, hm.started, hm.cancelled, hm.catching, rfl⟩
    obtain ⟨hsame, halike, hkeeps, -⟩ := h j _ _ hmade
    rw [exec_bind, exec_bind, exec_attempt, exec_attempt, hsame]
    dsimp only
    generalize exec (inner (reportPath (w.draw j))) w
      { m with files := withReport m.files (w.draw j), temporaries := k } = left at *
    generalize exec (inner (reportPath (w.draw j))) w
      { m' with files := withReport m'.files (w.draw j), temporaries := k } = left' at *
    have hbeside := (keeps_withReport hn).trans hkeeps.files
    obtain ⟨notes, hremove⟩ := exec_removeReport_of_keeps hn hbeside w
    obtain ⟨notes', hremove'⟩ := exec_removeReport_of_keeps hn
      (hbeside.sameDirectories.trans halike.files.sameDirectories) w
    rw [exec_bind, exec_bind, hremove, hremove']
    dsimp only
    rw [exec_ofExcept, exec_ofExcept]
    exact ⟨rfl, ⟨halike.files.erase (reportPlace_ne_nil _), halike.clock, halike.started,
      halike.cancelled, halike.catching, halike.temporaries⟩,
      ⟨keeps_erase_of_beside hn hbeside, hkeeps.printed⟩, fun _ _ => trivial⟩
  · rw [hnew, hnew']
    exact ⟨rfl, ⟨hm.files, hm.clock, hm.started, hm.cancelled, hm.catching, rfl⟩,
      ⟨.refl kept _, rfl⟩, fun _ _ => trivial⟩

variable (hw : w.LeavesAlone kept)
include hw

theorem ignores_layerReport (a : Adapter) (binary image : String) (watching : Bool) :
    Ignores kept free w (a.layerReport binary image watching) := by
  refine ignores_withReport hfree fun k => ?_
  have hbeside : ∀ p, free p → Beside kept (w.draw k) p :=
    fun p hp => ⟨hfree.kept p hp, fun hpk => hfree.reports k (hpk ▸ hp)⟩
  refine (ignores_socketEnvironment (beside_leavesAlone hw) hbeside).bind fun environment => ?_
  refine (ignores_command hbeside (spares_beside rfl) _ _ _ _).bind fun _ => ?_
  refine ignores_get_bind (fun m m' hm => ?_) fun m => ?_
  · simp only [read_reportPath hm.files hfree.directory (hfree.reports k)]
  · split
    · exact ignores_pure _
    · exact ignores_fail _

theorem ignores_run (a : Adapter) (himage : ∀ n, image ≠ reportPath n) (watching : Bool) :
    Ignores kept free w (a.run image watching) := by
  have hformat : ∀ n, "json" ≠ reportPath n := ne_reportPath (by decide)
  refine (ignores_program a).bind fun binary => ?_
  split
  · refine (ignores_call hw hfree.kept rfl himage _ _ _ _).bind fun output => ?_
    exact ignores_read.bind fun _ => (ignores_report _).bind fun _ => ignores_pure _
  · refine ignores_read.bind fun w' => ?_
    refine (ignores_call hw hfree.kept rfl himage _ _ _ _).bind fun output => ?_
    exact ignores_read.bind fun _ => (ignores_report _).bind fun _ => ignores_pure _
  · refine (ignores_call hw hfree.kept rfl hformat _ _ _ _).bind fun output => ?_
    exact ignores_read.bind fun _ => (ignores_report _).bind fun _ => ignores_pure _
  · -- Only the vulnerability report may leave a note.
    refine (ignores_call hw hfree.kept rfl hformat _ _ _ _).bind fun output => ?_
    refine ignores_read.bind fun _ => (ignores_report _).bind fun found => ?_
    extract_lets noted
    have hnoted : ∀ u, Ignores kept free w (noted u) := by
      refine fun _ => ignores_read.bind fun _ => ignores_get_bind (fun m m' hm => ?_)
        fun _ => ignores_pure _
      rw [hm.clock]
    split
    · exact (ignores_note _ _).bind hnoted
    · exact hnoted ()
  · refine (ignores_layerReport hfree hw a binary image watching).bind fun content => ?_
    exact ignores_read.bind fun _ => (ignores_report _).bind fun _ => ignores_pure _

end Adapter

end Ignores
end ContainerDocs

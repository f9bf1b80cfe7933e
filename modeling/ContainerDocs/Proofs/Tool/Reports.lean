import ContainerDocs.Analysis.Basic
import ContainerDocs.Proofs.Tool.Contribution
import ContainerDocs.Proofs.Tool.Determined

/-!
# Reports of tools

In a steady world, what a tool reports about an image depends on the disk only. The layer tool is
told the path of a new file, which is removed again, so that also this tool leaves the files as they
are.

## Main statements

* `Adapter.determined_withReport` — a report that is made for a step leaves no file behind.
* `Adapter.determined_run` — what a tool gives is determined by the disk.
-/

namespace ContainerDocs

/-! ## Running tools -/

namespace Adapter

open Run

variable {w : World} {makes : Bool} {stops : Stop → Prop}

theorem determined_locate (a : Adapter) : Determined w makes stops (fun _ => True) a.locate := by
  refine .ite (Tools.determined_runtime?.bind fun _ _ => determined_pure trivial) ?_
  refine (Tools.determined_lookup? _).bind fun found _ => ?_
  split <;> exact determined_pure trivial

theorem determined_program (a : Adapter) :
    Determined w makes (· ≠ .interrupted) (fun _ => True) a.program := by
  rw [program]
  split
  · exact determined_pure trivial
  · exact determined_throw (by rintro ⟨⟩)

theorem determined_report {α : Type} (r : Except ReportError α) :
    Determined w makes (· ≠ .interrupted) (fun _ => True) (report r) := by
  cases r with
  | ok a => exact determined_pure trivial
  | error e => exact determined_throw (stopOf_ne_interrupted e)

section Tools

variable (hw : w.IsSteady) (hreports : w.WritesReportsOnly)
include hw hreports

/-- A command that is not told the path of a report is not interrupted. -/
theorem determined_call {argv : List String} {last : String} (hlast : argv.getLast? = some last)
    (hreport : ∀ n, last ≠ reportPath n) (timeout : Binary64) (watching : Bool)
    (environment : Option (List (String × String))) (combined : Bool) :
    Determined w makes (· ≠ .interrupted) (fun _ => True)
      (command argv timeout watching environment combined) := by
  refine (determined_command hw hreports hlast hreport timeout watching environment combined).mono
    (fun _ _ => trivial) ?_
  rintro _ ⟨f, rfl, -⟩ ⟨⟩

theorem determined_machineSocket :
    Determined w makes (· ≠ .interrupted) (fun _ => True) machineSocket := by
  have hinspect : Determined w makes (· ≠ .interrupted) (fun _ => True)
      (command socketCommand machineTimeout false none false) :=
    determined_call hw hreports rfl (ne_reportPath (by decide)) machineTimeout false none
      false
  refine Determined.bind (Determined.tryCatch (hinspect.map some) fun e he => ?_) fun output _ => ?_
  · split
    · exact determined_pure trivial
    · exact determined_throw he
  · split
    · exact determined_pure trivial
    · refine determined_read.bind fun w' _ => ?_
      split
      · exact determined_throw (by rintro ⟨⟩)
      · exact determined_pure trivial
      next v _ =>
        refine determined_ofExcept (fun _ _ => trivial) fun e he => ?_
        cases hsocket : socketIn v with
        | error c =>
          rw [hsocket] at he
          cases he
          rintro ⟨⟩
        | ok path =>
          rw [hsocket] at he
          cases he

theorem determined_socketEnvironment :
    Determined w makes (· ≠ .interrupted) (fun _ => True) socketEnvironment := by
  refine determined_read.bind fun w' _ => ?_
  refine (Tools.determined_setting? _).bind fun host _ => ?_
  refine .ite (determined_pure trivial)
    (((determined_machineSocket hw hreports).map _).bind fun socket _ => ?_)
  exact .ite (determined_pure trivial) (determined_read.bind fun _ _ => determined_pure trivial)

end Tools

/-! ## Reports of the layer tool -/

/-- A machine with a disk, with or without a report, on which no cancellation was asked for. -/
structure HoldsReportOn (d : Disk) (n : Nat) (m : Machine) : Prop where
  files : HoldsReport d.files n m.files
  temporaries : m.temporaries = d.temporaries
  uncancelled : m.cancelled = false

def made (d : Disk) (n : Nat) : Disk := ⟨withReport d.files n, d.temporaries⟩

section Reports

variable {d : Disk} {n : Nat}

/-- A new report gets a name that is free on the disk, or the run crashes and no file has
changed. -/
theorem gives_newReport (w : World) (d : Disk) :
    ∃ d' : Disk, d.Extends true d' ∧
      ((∃ n, IsFree d'.files n ∧ Gives w d.On newReport (.ok (reportPath n)) (made d' n).On) ∨
        ∃ c, Gives w d.On newReport (.error (.crash c)) d'.On) := by
  have hreports : ∀ k, d.files.find? (reportPlace (w.draw k)) =
      d.files.find? (reportPlace (w.draw k)) := fun _ => rfl
  obtain ⟨r, k, hdraw, -, hk, hfree⟩ := exists_drawReport rfl hreports maxDraws d.temporaries
  refine ⟨⟨d.files, k⟩, ⟨rfl, hk, by rintro ⟨⟩⟩, ?_⟩
  have hdrawn : ∀ m, d.On m → drawReport w.draw m.files maxDraws m.temporaries =
      (r.map fun n => (n, withReport d.files n), k) := by
    intro m hm
    rw [hm.files, hm.temporaries]
    exact hdraw
  cases r with
  | ok n =>
    refine .inl ⟨n, (hfree n rfl).1, fun m hm => ?_⟩
    exact ⟨_, exec_newReport_of_ok (hdrawn m hm), rfl, rfl, hm.uncancelled⟩
  | error c =>
    refine .inr ⟨c, fun m hm => ?_⟩
    exact ⟨_, exec_newReport_of_error (hdrawn m hm), hm.files, rfl, hm.uncancelled⟩

theorem holdsReportOn_of_on {m : Machine} (hm : (made d n).On m) : HoldsReportOn d n m :=
  ⟨hm.files ▸ holdsReport_withReport d.files n, hm.temporaries, hm.uncancelled⟩

theorem gives_removeReport (hn : IsFree d.files n) :
    Gives w (HoldsReportOn d n) (removeReport (reportPath n)) (.ok ()) d.On := by
  intro m hm
  obtain ⟨notes, hexec⟩ := exec_removeReport_of_holds hn hm.files w
  exact ⟨_, hexec, rfl, hm.temporaries, hm.uncancelled⟩

/-- A step with a report that is removed again leaves no file. -/
theorem determined_withReport {inner : String → Run Bytes} (hcrash : ∀ c, stops (.crash c))
    (h : ∀ (d : Disk) n, IsFree d.files n → ∃ r, Gives w (made d n).On (inner (reportPath n)) r
      (HoldsReportOn d n) ∧ ∀ e, r = .error e → stops e) :
    Determined w true stops (fun _ => True)
      (newReport >>= fun path => attempt (inner path) >>= fun outcome =>
        removeReport path >>= fun _ => Run.ofExcept outcome) := by
  intro d
  obtain ⟨d', hext, ⟨n, hn, hnew⟩ | ⟨c, hnew⟩⟩ := gives_newReport w d
  · obtain ⟨r, hinner, hstops⟩ := h d' n hn
    refine ⟨r, d', ?_, hext, fun _ _ => trivial, hstops⟩
    exact hnew.bind (hinner.attempt.bind ((gives_removeReport hn).bind (gives_ofExcept w _ r)))
  · refine ⟨.error (.crash c), d', hnew.bind_error, hext, fun _ _ => trivial, ?_⟩
    rintro _ ⟨⟩
    exact hcrash c

/-- A command that is told the path of a report that has just been made leaves a report or none, and
if it gives an output, it leaves one disk. -/
theorem exists_gives_reportCommand (hw : w.IsSteady) (hn : IsFree d.files n) (argv : List String)
    (hargv : argv.getLast? = some (reportPath n)) (timeout : Binary64) (watching : Bool)
    (environment : Option (List (String × String))) :
    ∃ (output : Except Stop Bytes) (left : Disk), (∀ e, output = .error e → e ≠ .interrupted) ∧
      (∀ m, left.On m → HoldsReportOn d n m) ∧
      Gives w (made d n).On (command argv timeout watching environment true) output fun m =>
        HoldsReportOn d n m ∧ (output.isOk = true → left.On m) := by
  obtain ⟨output, b, hstops, -, hcommand⟩ :=
    exec_command_steady hw argv timeout watching environment true
  have hleave : HoldsReport d.files n (b.leave argv w (made d n).files) :=
    (holdsReport_withReport d.files n).leave hn w hargv b
  refine ⟨output, ⟨b.leave argv w (made d n).files, d.temporaries⟩, fun e he => ?_,
    fun m hm => ⟨hm.files ▸ hleave, hm.temporaries, hm.uncancelled⟩, fun m hm => ?_⟩
  · obtain ⟨f, rfl, -⟩ := hstops e he
    rintro ⟨⟩
  · obtain ⟨m', hexec, hframe, hfiles, hok⟩ := hcommand m hm.uncancelled
    have htemporaries : m'.temporaries = d.temporaries := hframe.temporaries.trans hm.temporaries
    have huncancelled : m'.cancelled = false := hframe.cancelled.trans hm.uncancelled
    rw [hm.files] at hfiles hok
    refine ⟨m', hexec, ⟨?_, htemporaries, huncancelled⟩, fun h => ⟨?_, htemporaries, huncancelled⟩⟩
    · obtain hfiles | hfiles := hfiles <;> rw [hfiles]
      · exact holdsReport_withReport d.files n
      · exact hleave
    · obtain ⟨value, hvalue⟩ := exists_of_isOk h
      exact hok value hvalue

variable (hw : w.IsSteady) (hreports : w.WritesReportsOnly)
include hw hreports

/-- What the layer tool reports is determined by the disk, and its report is gone afterwards. -/
theorem determined_layerReport (a : Adapter) (binary image : String) (watching : Bool) :
    Determined w true (· ≠ .interrupted) (fun _ => True)
      (a.layerReport binary image watching) := by
  refine determined_withReport (fun c => by rintro ⟨⟩) fun d n hn => ?_
  have hsocket : Determined w false (· ≠ .interrupted) (fun _ => True) socketEnvironment :=
    determined_socketEnvironment hw hreports
  obtain ⟨r, d', hr, hext, -, hstops⟩ := hsocket (made d n)
  obtain rfl := hext.eq
  cases r with
  | error e =>
    refine ⟨.error e, hr.bind_error.mono fun m => holdsReportOn_of_on, ?_⟩
    rintro _ ⟨⟩
    exact hstops e rfl
  | ok environment =>
    refine hr.exists_bind ?_
    obtain ⟨output, left, hstops, hleft, hrun⟩ := exists_gives_reportCommand hw hn
      [binary, image, "--json", reportPath n] rfl a.timeout watching environment
    cases output with
    | error e =>
      refine ⟨.error e, (hrun.mono fun m hm => hm.1).bind_error, ?_⟩
      rintro _ ⟨⟩
      exact hstops e rfl
    | ok output =>
      let m₀ : Machine := { files := left.files }
      refine (hrun.mono fun m hm => hm.2 rfl).exists_bind
        (exists_gives_get_bind (fun m m' hm => ?_) m₀ rfl ?_)
      · rw [hm]
      · split
        · refine ⟨_, (gives_pure w left.On _).mono hleft, ?_⟩
          rintro _ ⟨⟩
        · refine ⟨_, (gives_throw w left.On _).mono hleft, ?_⟩
          rintro _ ⟨⟩ ⟨⟩

/-- What a tool gives about an image is determined by the disk, unless the image is the path of a
report. -/
theorem determined_run (a : Adapter) {image : String} (himage : ∀ n, image ≠ reportPath n)
    (watching : Bool) :
    Determined w true (· ≠ .interrupted) (fun _ => True) (a.run image watching) := by
  have hformat : ∀ n, "json" ≠ reportPath n := ne_reportPath (by decide)
  refine (determined_program a).bind fun binary _ => ?_
  split
  · refine (determined_call hw hreports rfl himage _ _ _ _).bind fun output _ => ?_
    refine determined_read.bind fun _ _ => ?_
    exact (determined_report _).bind fun _ _ => determined_pure trivial
  · refine determined_read.bind fun w' _ => ?_
    refine (determined_call hw hreports rfl himage _ _ _ _).bind fun output _ => ?_
    refine determined_read.bind fun _ _ => ?_
    exact (determined_report _).bind fun _ _ => determined_pure trivial
  · refine (determined_call hw hreports rfl hformat _ _ _ _).bind fun output _ => ?_
    refine determined_read.bind fun _ _ => ?_
    exact (determined_report _).bind fun _ _ => determined_pure trivial
  · refine (determined_call hw hreports rfl hformat _ _ _ _).bind fun output _ => ?_
    refine determined_read.bind fun _ _ => (determined_report _).bind fun found _ => ?_
    extract_lets noted
    have hnoted : ∀ u, Determined w true (· ≠ .interrupted) (fun _ => True) (noted u) := by
      refine fun _ => determined_read.bind fun w' hw' => determined_get_bind (fun m m' _ => ?_)
        fun _ => determined_pure trivial
      rw [hw', hw.now m'.clock m.clock]
    split
    · exact (determined_note _ _).bind fun u _ => hnoted u
    · exact hnoted ()
  · refine (determined_layerReport hw hreports a binary image watching).bind fun content _ => ?_
    refine determined_read.bind fun _ _ => ?_
    exact (determined_report _).bind fun _ _ => determined_pure trivial

end Reports
end Adapter
end ContainerDocs

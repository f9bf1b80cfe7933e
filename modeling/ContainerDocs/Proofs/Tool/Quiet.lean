import ContainerDocs.Proofs.System.Quiet
import ContainerDocs.Proofs.Tool.Contribution
import ContainerDocs.Proofs.Tool.ReportFile

/-!
# Tools that nothing disturbs

In a quiet world a tool gives statistics or fails. Whatever it prints or writes, it neither asks for
a cancellation nor interrupts the run.

## Main statements

* `Adapter.undisturbed_locate` — a tool is there or not.
* `Adapter.undisturbed_run` — what a tool gives about an image.
* `Adapter.exists_inspection` — what the runtime tells comes from what it prints.
-/

namespace ContainerDocs

open Run

variable {w : World} {stops : Stop → Prop}

/-! ## Finding tools -/

namespace Tools

theorem undisturbed_directory : Undisturbed w stops (fun _ => True) directory := by
  refine (undisturbed_setting? _).bind fun d _ => ?_
  split
  · exact undisturbed_pure trivial
  · exact (undisturbed_setting? _).bind fun _ _ => undisturbed_pure trivial

theorem undisturbed_lookup? (name : String) :
    Undisturbed w stops (fun _ => True) (lookup? name) := by
  refine undisturbed_read.bind fun w' _ => ?_
  split
  · exact undisturbed_pure trivial
  · refine undisturbed_directory.bind fun d _ => ?_
    refine undisturbed_get.bind fun m _ => undisturbed_place.bind fun here _ => ?_
    exact .ite (undisturbed_pure trivial) (undisturbed_pure trivial)

theorem undisturbed_runtime? : Undisturbed w stops (fun _ => True) runtime? :=
  undisturbed_read.bind fun _ _ => undisturbed_pure trivial

end Tools

/-! ## Running tools -/

namespace Adapter

theorem undisturbed_locate (a : Adapter) : Undisturbed w stops (fun _ => True) a.locate := by
  refine .ite (Tools.undisturbed_runtime?.bind fun _ _ => undisturbed_pure trivial) ?_
  refine (Tools.undisturbed_lookup? _).bind fun found _ => ?_
  split <;> exact undisturbed_pure trivial

theorem undisturbed_program (a : Adapter) :
    Undisturbed w (· ≠ .interrupted) (fun _ => True) a.program := by
  rw [program]
  split
  · exact undisturbed_pure trivial
  · exact undisturbed_throw (by rintro ⟨⟩)

theorem undisturbed_report {α : Type} (r : Except ReportError α) :
    Undisturbed w (· ≠ .interrupted) (fun _ => True) (report r) := by
  cases r with
  | ok a => exact undisturbed_pure trivial
  | error e => exact undisturbed_throw (stopOf_ne_interrupted e)

theorem undisturbed_newReport : Undisturbed w (· ≠ .interrupted) (fun _ => True) newReport := by
  intro m hm
  obtain ⟨n, k, hexec, -⟩ | ⟨c, k, hexec, -⟩ := exec_newReport w m
  · rw [hexec]
    exact ⟨hm, fun _ _ => trivial, by rintro _ ⟨⟩⟩
  · rw [hexec]
    exact ⟨hm, fun _ _ => trivial, by rintro _ ⟨⟩ ⟨⟩⟩

theorem undisturbed_removeReport (path : String) :
    Undisturbed w stops (fun _ => True) (removeReport path) := by
  refine undisturbed_get.bind fun m _ => ?_
  split
  · exact undisturbed_modify fun _ => rfl
  · exact undisturbed_note _ _

/-- A step with a report ends as the step does. -/
theorem undisturbed_withReport {inner : String → Run Bytes}
    (h : ∀ path, Undisturbed w (· ≠ .interrupted) (fun _ => True) (inner path)) :
    Undisturbed w (· ≠ .interrupted) (fun _ => True)
      (newReport >>= fun path => attempt (inner path) >>= fun outcome =>
        removeReport path >>= fun _ => Run.ofExcept outcome) := by
  refine undisturbed_newReport.bind fun path _ => (h path).attempt.bind fun outcome houtcome => ?_
  refine (undisturbed_removeReport path).bind fun _ _ => ?_
  exact undisturbed_ofExcept (fun _ _ => trivial) houtcome.2

variable (hw : w.IsQuiet)
include hw

/-- A command fails, at worst. -/
theorem undisturbed_call (argv : List String) (timeout : Binary64) (watching : Bool)
    (environment : Option (List (String × String))) (combined : Bool) :
    Undisturbed w (· ≠ .interrupted) (fun _ => True)
      (command argv timeout watching environment combined) := by
  refine (undisturbed_command hw argv timeout watching environment combined).mono
    (fun _ _ => trivial) ?_
  rintro _ ⟨f, rfl, -⟩ ⟨⟩

theorem undisturbed_machineSocket :
    Undisturbed w (· ≠ .interrupted) (fun _ => True) machineSocket := by
  have hinspect : Undisturbed w (· ≠ .interrupted) (fun _ => True)
      (command socketCommand machineTimeout false none false) :=
    undisturbed_call hw _ _ _ _ _
  refine Undisturbed.bind (Undisturbed.tryCatch (hinspect.map some) fun e he => ?_)
    fun output _ => ?_
  · split
    · exact undisturbed_pure trivial
    · exact undisturbed_throw he
  · split
    · exact undisturbed_pure trivial
    · refine undisturbed_read.bind fun w' _ => ?_
      split
      · exact undisturbed_throw (by rintro ⟨⟩)
      · exact undisturbed_pure trivial
      next v _ =>
        refine undisturbed_ofExcept (fun _ _ => trivial) fun e he => ?_
        cases hsocket : socketIn v with
        | error c =>
          rw [hsocket] at he
          cases he
          rintro ⟨⟩
        | ok path =>
          rw [hsocket] at he
          cases he

theorem undisturbed_socketEnvironment :
    Undisturbed w (· ≠ .interrupted) (fun _ => True) socketEnvironment := by
  refine undisturbed_read.bind fun w' _ => ?_
  refine (undisturbed_setting? _).bind fun host _ => ?_
  refine .ite (undisturbed_pure trivial)
    (((undisturbed_machineSocket hw).map _).bind fun socket _ => ?_)
  exact .ite (undisturbed_pure trivial)
    (undisturbed_read.bind fun _ _ => undisturbed_pure trivial)

theorem undisturbed_layerReport (a : Adapter) (binary image : String) (watching : Bool) :
    Undisturbed w (· ≠ .interrupted) (fun _ => True)
      (a.layerReport binary image watching) := by
  refine undisturbed_withReport fun path => ?_
  refine (undisturbed_socketEnvironment hw).bind fun environment _ => ?_
  refine (undisturbed_call hw _ _ _ _ _).bind fun _ _ => undisturbed_get.bind fun m _ => ?_
  split
  · exact undisturbed_pure trivial
  · exact undisturbed_throw (by rintro ⟨⟩)

/-- What a tool prints or writes about an image gives statistics, or the tool fails. -/
theorem undisturbed_run (a : Adapter) (image : String) (watching : Bool) :
    Undisturbed w (· ≠ .interrupted) (fun _ => True) (a.run image watching) := by
  refine (undisturbed_program a).bind fun binary _ => ?_
  split
  · refine (undisturbed_call hw _ _ _ _ _).bind fun output _ => undisturbed_read.bind fun _ _ => ?_
    exact (undisturbed_report _).bind fun _ _ => undisturbed_pure trivial
  · refine undisturbed_read.bind fun w' _ => ?_
    refine (undisturbed_call hw _ _ _ _ _).bind fun output _ => undisturbed_read.bind fun _ _ => ?_
    exact (undisturbed_report _).bind fun _ _ => undisturbed_pure trivial
  · refine (undisturbed_call hw _ _ _ _ _).bind fun output _ => undisturbed_read.bind fun _ _ => ?_
    exact (undisturbed_report _).bind fun _ _ => undisturbed_pure trivial
  · refine (undisturbed_call hw _ _ _ _ _).bind fun output _ => undisturbed_read.bind fun _ _ => ?_
    refine (undisturbed_report _).bind fun found _ => ?_
    extract_lets noted
    have hnoted : ∀ u, Undisturbed w (· ≠ .interrupted) (fun _ => True) (noted u) :=
      fun _ => undisturbed_read.bind fun _ _ => undisturbed_get.bind fun _ _ =>
        undisturbed_pure trivial
    split
    · exact (undisturbed_note _ _).bind fun u _ => hnoted u
    · exact hnoted ()
  · refine (undisturbed_layerReport hw a binary image watching).bind fun content _ => ?_
    refine undisturbed_read.bind fun _ _ => ?_
    exact (undisturbed_report _).bind fun _ _ => undisturbed_pure trivial

/-- A tool that runs through the container runtime gives what its command prints, in time and with
success, if that can be read. -/
theorem exec_run_of_inspection {a : Adapter} {binary image : String} {m : Machine} {b : Behaviour}
    {r : InspectReport} (watching : Bool) (ha : a.tool = .runtime)
    (hbinary : a.found? = some binary) (hm : m.cancelled = false)
    (hb : w.respond (m.started.map (·.command)) [binary, "inspect", image] = .runs b)
    (hstatus : b.status = 0) (hinTime : b.InTime a.timeout)
    (hread : InspectReport.read (w.nesting [binary, "inspect", image]) b.output image binary =
      .ok r) :
    (exec (a.run image watching) w m).1 = .ok (r.stats image) := by
  obtain ⟨m', hcommand, -⟩ :=
    exists_exec_command_of_inTime hw hm watching none false hb hstatus hinTime
  have hprogram : exec a.program w m = (.ok binary, m) := by
    rw [program, hbinary]
    rfl
  rw [run, exec_bind, hprogram, ha]
  dsimp only
  rw [exec_bind, hcommand, if_neg Bool.false_ne_true]
  dsimp only
  rw [exec_bind, exec_read]
  dsimp only
  rw [exec_bind, hread]
  rfl

/-- What the runtime tells about an image is read from what its inspection prints. -/
theorem exists_inspection {a : Adapter} {image : String} {watching : Bool} {m m' : Machine}
    {s : ImageStats} (ha : a.tool = .runtime)
    (h : exec (a.run image watching) w m = (.ok s, m')) :
    ∃ binary before b r, w.respond before [binary, "inspect", image] = .runs b ∧ b.status = 0 ∧
      InspectReport.read (w.nesting [binary, "inspect", image]) b.output image binary = .ok r ∧
      s = r.stats image := by
  obtain ⟨binary, m₁, -, h⟩ := exec_bind_eq_ok.1 h
  rw [ha] at h
  obtain ⟨output, m₂, hcommand, h⟩ := exec_bind_eq_ok.1 h
  obtain ⟨surroundings, m₃, hworld, h⟩ := exec_bind_eq_ok.1 h
  cases hworld
  obtain ⟨r, hr, h⟩ := exec_report_bind h
  cases h
  obtain ⟨b, hb, hresult⟩ := exists_runs_of_command hw hcommand
  rw [Behaviour.result, if_neg Bool.false_ne_true] at hresult
  by_cases hstatus : b.status = 0
  · rw [if_pos hstatus] at hresult
    cases hresult
    exact ⟨binary, _, b, r, hb, hstatus, hr, rfl⟩
  · rw [if_neg hstatus] at hresult
    cases hresult

end Adapter
end ContainerDocs

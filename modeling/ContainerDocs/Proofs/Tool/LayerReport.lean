import ContainerDocs.Proofs.System.Leaves
import ContainerDocs.Proofs.Tool.Commands
import ContainerDocs.Proofs.Tool.Contribution
import ContainerDocs.Proofs.Tool.Reports

/-!
# The report of the layer tool

The layer tool writes its report to a new file, which is gone when its run is over. This holds
however the run ends: the tool may be missing, fail, be too slow or be cancelled, it may write
anything, write nothing or remove the report itself, and the run may be interrupted at any moment.
All other files stay as they are. Statistics come of a run only if the tool ended well and wrote a
report that is accepted.

## Main statements

* `Adapter.leaves_socketEnvironment` — asking for the socket leaves the files as they are.
* `Adapter.exec_withReport` — a step with a report that is removed again leaves no file.
* `Adapter.exec_run_layerTool` — what a run of the tool leaves and gives.
* `Adapter.run_leaves_no_report` — the report is gone after the run, and the other files are there.
-/

namespace ContainerDocs

open Run

namespace Adapter

variable {w : World} {fs gs : Files} {n : Nat}

/-! ## What a report holds -/

/-- A report that is there is read. -/
theorem read_put_reportPlace (hn : IsFree fs n) (directory : Place) (content : Bytes) :
    (fs.put (reportPlace n) (.file content false)).read directory (reportPath n) = .ok content := by
  have hholds : HoldsReport fs n (fs.put (reportPlace n) (.file content false)) :=
    .inr ⟨content, rfl⟩
  rw [Files.read_eq (hholds.resolve hn directory), Files.find?_put (reportPlace_ne_nil n)]

/-- A report that is there after a command has left it holds what the command wrote, or nothing. -/
theorem content_of_leave (hn : IsFree fs n) {argv : List String}
    (hargv : argv.getLast? = some (reportPath n)) {b : Behaviour} {directory : Place}
    {content : Bytes}
    (hread : (b.leave argv w (withReport fs n)).read directory (reportPath n) = .ok content) :
    content = [] ∨ b.report = .written content := by
  have hholds := holdsReport_withReport fs n
  rw [Behaviour.leave, hargv] at hread
  cases hreport : b.report with
  | none =>
    rw [hreport] at hread
    exact .inl (Except.ok.inj (hread.symm.trans (read_put_reportPlace hn directory [])))
  | written content' =>
    rw [hreport] at hread
    dsimp only [Option.getD_some] at hread
    rw [hholds.write hn] at hread
    have hcontent := Except.ok.inj (hread.symm.trans (read_put_reportPlace hn directory content'))
    exact .inr (by rw [hcontent])
  | removed =>
    have hplace : fs.resolve directory (reportPath n) = .ok (reportPlace n) :=
      HoldsReport.resolve hn (.inl rfl) directory
    rw [hreport] at hread
    dsimp only [Option.getD_some] at hread
    rw [hholds.remove hn, Files.read_eq hplace, hn.fresh] at hread
    cases hread

/-- The search for a tool changes nothing. -/
theorem exec_ready (a : Adapter) (w : World) (m : Machine) :
    ∃ a', exec a.ready w m = (.ok a', m) ∧ a'.tool = a.tool := by
  rw [ready]
  cases a.found? with
  | some program => exact ⟨a, rfl, rfl⟩
  | none =>
    obtain ⟨a', ha'⟩ := exec_locate a w m
    refine ⟨a', ?_, locate_tool ha'⟩
    dsimp only
    rw [exec_bind, ha']
    rfl

/-! ## Running the tool -/

def SocketReportsNothing (w : World) : Prop :=
  ∀ before b, w.respond before Adapter.socketCommand = .runs b → b.report = .none

theorem leaves_machineSocket (hsocket : SocketReportsNothing w) :
    Leaves w (· = fs) (fun _ => (· = fs)) (· = fs) machineSocket := by
  have hnothing : ∀ before b, w.respond before Adapter.socketCommand = .runs b →
      b.leave Adapter.socketCommand w fs = fs := by
    intro before b hb
    rw [Behaviour.leave, hsocket before b hb]
  have hcommand : Leaves w (· = fs) (fun _ => (· = fs)) (· = fs)
      (command Adapter.socketCommand machineTimeout false none false) := by
    refine (leaves_command _ _ _ _ _).mono ?_ ?_
    · rintro _ _ ⟨before, b, hb, -, rfl⟩
      exact hnothing before b hb
    · rintro _ (rfl | ⟨before, b, hb, rfl⟩)
      · rfl
      · exact hnothing before b hb
  have hstop : ∀ e : Stop, Leaves w (· = fs) (fun _ => (· = fs)) (· = fs)
      (throw e : Run (Option Bytes)) := fun _ => leaves_throw fun _ h => h
  refine Leaves.bind (Leaves.tryCatch (hcommand.map some) fun e => ?_) fun output => ?_
  · split
    · exact leaves_pure fun _ h => h
    · exact hstop _
  · split
    · exact leaves_pure fun _ h => h
    · refine leaves_read.bind fun w' => ?_
      split
      · exact leaves_throw fun _ h => h
      · exact leaves_pure fun _ h => h
      · exact (leaves_ofExcept _ fun _ h => h).mono (fun _ _ h => h.2) fun _ h => h

theorem leaves_socketEnvironment (hsocket : SocketReportsNothing w) :
    Leaves w (· = fs) (fun _ => (· = fs)) (· = fs) socketEnvironment := by
  have hnone : Leaves w (· = fs) (fun _ => (· = fs)) (· = fs)
      (pure none : Run (Option (List (String × String)))) := leaves_pure fun _ h => h
  refine leaves_read.bind fun w' => ?_
  obtain ⟨value, hvalue⟩ := exec_setting? "DOCKER_HOST" w
  refine (leaves_of_exec fun m => ⟨value, hvalue m⟩).bind fun host => .ite hnone ?_
  refine ((leaves_machineSocket hsocket).map _).bind fun socket => .ite hnone ?_
  exact leaves_read.bind fun w' => leaves_pure fun _ h => h

/-- A program has ended well and left a content in the report that it was told, maybe the one that
was there. -/
def LeftReport (w : World) (binary image : String) (n : Nat) (content : Bytes) : Prop :=
  ∃ before b, w.respond before ((ImageUse.layers n).command binary image) = .runs b ∧
    b.status = 0 ∧ (content = [] ∨ b.report = .written content)

theorem leaves_removeReport {stopped : Files → Prop} (hn : IsFree fs n)
    (h : HoldsReport fs n gs) :
    Leaves w (· = gs) (fun _ => (· = fs)) stopped (removeReport (reportPath n)) := by
  rintro m rfl
  obtain ⟨notes, hexec⟩ := exec_removeReport_of_holds hn h w
  rw [hexec]
  exact ⟨fun _ _ => rfl, by rintro _ ⟨⟩⟩

def Draws (w : World) (m : Machine) (n : Nat) : Prop := (exec newReport w m).1 = .ok (reportPath n)

/-- A new report that is drawn was not there. -/
theorem Draws.isFree {m : Machine} (h : Draws w m n) : IsFree m.files n := by
  obtain ⟨n', k, hexec, -, hn'⟩ | ⟨c, k, hexec, -⟩ := exec_newReport w m
  · rw [Draws, hexec] at h
    exact reportPath_injective (Except.ok.inj h) ▸ hn'
  · rw [Draws, hexec] at h
    cases h

/-- A step that leaves a new report at most, followed by the removal of the report, leaves the files
as they were. -/
theorem exec_withReport {inner : String → Run Bytes} {found : Nat → Bytes → Prop} {m : Machine}
    (h : ∀ n, IsFree m.files n → Leaves w (· = withReport m.files n)
      (fun content gs => HoldsReport m.files n gs ∧ found n content)
      (HoldsReport m.files n) (inner (reportPath n))) :
    let r := exec (newReport >>= fun path => attempt (inner path) >>= fun outcome =>
      removeReport path >>= fun _ => Run.ofExcept outcome) w m
    r.2.files = m.files ∧ ∀ content, r.1 = .ok content → ∃ n, Draws w m n ∧ found n content := by
  rw [exec_bind]
  obtain ⟨n, k, hnew, -, hn⟩ | ⟨c, k, hnew, -⟩ := exec_newReport w m
  · have hrest : Leaves w (· = withReport m.files n)
        (fun content gs => found n content ∧ gs = m.files) (· = m.files)
        (attempt (inner (reportPath n)) >>= fun outcome =>
          removeReport (reportPath n) >>= fun _ => Run.ofExcept outcome) := by
      refine (h n hn).attempt.bind fun outcome => Leaves.of_each fun gs hgs => ?_
      have hholds : HoldsReport m.files n gs := by
        cases outcome with
        | ok content => exact (hgs.1 content rfl).1
        | error e => exact hgs.2 e rfl
      refine (leaves_removeReport hn hholds).bind fun _ => ?_
      refine (leaves_ofExcept outcome fun _ h => h).mono ?_ fun _ h => h
      rintro content _ ⟨houtcome, rfl⟩
      exact ⟨(hgs.1 content houtcome).2, rfl⟩
    rw [hnew]
    exact ⟨hrest.files rfl (fun _ _ h => h.2) fun _ h => h, fun content hcontent =>
      ⟨n, congrArg Prod.fst hnew, ((hrest _ rfl).1 content hcontent).1⟩⟩
  · rw [hnew]
    exact ⟨rfl, by rintro _ ⟨⟩⟩

/-- However the run of the layer tool ends, the files are as they were. What it gives is what the
tool has left in the report. -/
theorem exec_layerReport (hsocket : SocketReportsNothing w) (a : Adapter) (binary image : String)
    (watching : Bool) (m : Machine) :
    (exec (a.layerReport binary image watching) w m).2.files = m.files ∧
      ∀ content, (exec (a.layerReport binary image watching) w m).1 = .ok content →
        ∃ n, Draws w m n ∧ LeftReport w binary image n content := by
  rw [layerReport]
  refine exec_withReport fun n hn => ?_
  have hmade := holdsReport_withReport m.files n
  have hleave : ∀ b : Behaviour, HoldsReport m.files n
      (b.leave ((ImageUse.layers n).command binary image) w (withReport m.files n)) :=
    fun b => hmade.leave hn w rfl b
  refine ((leaves_socketEnvironment hsocket).mono (fun _ _ h => h) ?_).bind fun environment => ?_
  · rintro _ rfl
    exact hmade
  refine Leaves.bind ((leaves_command _ _ _ _ _).mono (fun _ _ h => h) ?_) fun output => ?_
  · rintro _ (rfl | ⟨before, b, -, rfl⟩)
    · exact hmade
    · exact hleave b
  refine Leaves.of_each fun gs hgs => ?_
  obtain ⟨before, b, hb, hresult, rfl⟩ := hgs
  refine leaves_get.bind fun m' => Leaves.of_each fun gs hgs => ?_
  obtain ⟨hfiles, rfl⟩ := hgs
  have hstatus : b.status = 0 := by
    rw [Behaviour.result] at hresult
    by_contra hne
    rw [if_neg hne] at hresult
    cases hresult
  split
  next content hcontent =>
    rw [hfiles] at hcontent
    refine leaves_pure ?_
    rintro _ rfl
    exact ⟨hleave b, before, b, hb, hstatus, content_of_leave hn rfl hcontent⟩
  next e _ =>
    refine leaves_throw ?_
    rintro _ rfl
    exact hleave b

/-- A report that can be read is one that the tool has written: an empty one cannot. -/
theorem LeftReport.written {binary image : String} {content : Bytes} {nesting : Json.Nesting}
    {report : LayerReport} (h : LeftReport w binary image n content)
    (hread : LayerReport.read nesting content = .ok report) :
    ∃ before b, w.respond before ((ImageUse.layers n).command binary image) = .runs b ∧
      b.status = 0 ∧ b.report = .written content := by
  obtain ⟨before, b, hb, hstatus, hcontent⟩ := h
  refine ⟨before, b, hb, hstatus, hcontent.resolve_left ?_⟩
  rintro rfl
  cases hread

/-- A run of the layer tool leaves the files as they were, and gives the statistics of a report that
the tool has written. -/
theorem exec_run_layerTool (hsocket : SocketReportsNothing w) {a : Adapter} (ha : a.tool = .dive)
    (image : String) (watching : Bool) (m : Machine) :
    (exec (a.run image watching) w m).2.files = m.files ∧
      ∀ stats, (exec (a.run image watching) w m).1 = .ok stats →
        ∃ n program before b content report, Draws w m n ∧
          w.respond before ((ImageUse.layers n).command program image) = .runs b ∧
          b.status = 0 ∧ b.report = .written content ∧
          LayerReport.read (w.nesting [program, image, "--json"]) content = .ok report ∧
          stats = report.stats := by
  rw [Adapter.run, program]
  cases a.found? with
  | none => exact ⟨rfl, by rintro _ ⟨⟩⟩
  | some program =>
    rw [ha]
    dsimp only
    rw [pure_bind, exec_bind]
    obtain ⟨hfiles, hleft⟩ := exec_layerReport hsocket a program image watching m
    rcases hexec : exec (a.layerReport program image watching) w m with ⟨e | content, m'⟩ <;>
      rw [hexec] at hfiles hleft
    · exact ⟨hfiles, by rintro _ ⟨⟩⟩
    · dsimp only
      rw [exec_bind, exec_read]
      dsimp only
      cases hread : LayerReport.read (w.nesting [program, image, "--json"]) content with
      | error e => exact ⟨hfiles, by rintro _ ⟨⟩⟩
      | ok report =>
        obtain ⟨n, hn, hcontent⟩ := hleft content rfl
        obtain ⟨before, b, hb, hstatus, hwritten⟩ := hcontent.written hread
        refine ⟨hfiles, ?_⟩
        rintro _ ⟨⟩
        exact ⟨n, program, before, b, content, report, hn, hb, hstatus, hwritten, hread, rfl⟩

/-- When a run of the layer tool is over, its report is gone and all other files are as they were.
Statistics come of it only if the tool ended well and wrote a report that is accepted. -/
theorem run_leaves_no_report (w : World) (a : Adapter) (ha : a.tool = .dive) (image : String)
    (watching : Bool) (m : Machine) (hsocket : SocketReportsNothing w) :
    let r := exec (a.ready >>= fun a => a.run image watching) w m
    (∀ n, Draws w m n → r.2.files.find? (reportPlace n) = none) ∧ r.2.files = m.files ∧
      ∀ stats, r.1 = .ok stats → ∃ n program before b content report, Draws w m n ∧
        w.respond before ((ImageUse.layers n).command program image) = .runs b ∧
        b.status = 0 ∧ b.report = .written content ∧
        LayerReport.read (w.nesting [program, image, "--json"]) content = .ok report ∧
        stats = report.stats := by
  intro r
  obtain ⟨a', hready, htool⟩ := exec_ready a w m
  have hr : r = exec (a'.run image watching) w m := by
    dsimp only [r]
    rw [exec_bind, hready]
  obtain ⟨hfiles, hstats⟩ := exec_run_layerTool hsocket (htool.trans ha) image watching m
  rw [hr]
  exact ⟨fun n hn => hfiles ▸ hn.isFree.fresh, hfiles, hstats⟩

def reporting (content : String) : World where
  respond _ argv :=
    if argv.contains "--json" then .runs { report := .written content.toUTF8.toList, duration := 3 }
    else .fails (.missing "podman")
  find? name := if name = "dive" then some "/usr/bin/dive" else none
  environment := []
  directory := "/"
  now _ := ⟨⟨2024, 1, 1⟩, 0, 0, 0, 0, none⟩

/-- A report that is accepted, beside another file. -/
theorem run_leaves_no_report_of_reporting :
    let w := reporting "\x7b\"image\": \x7b\"inefficientBytes\": 7\x7d\x7d"
    let m : Machine :=
      { files := ⟨[(["tmp"], .directory), (["tmp", "a"], .file [104, 105] false)]⟩ }
    let r := exec ((new .dive).ready >>= fun a => a.run "alpine" true) w m
    SocketReportsNothing w ∧ r.2.files = m.files ∧ ∃ stats report content, r.1 = .ok stats ∧
      LayerReport.read (w.nesting ["/usr/bin/dive", "alpine", "--json"]) content = .ok report ∧
      stats = report.stats := by
  intro w m r
  have hsocket : SocketReportsNothing w := by
    intro before b hb
    have hcommand : Adapter.socketCommand.contains "--json" = false := by decide
    dsimp only [w, reporting] at hb
    rw [hcommand] at hb
    cases hb
  obtain ⟨-, hfiles, hstats⟩ := run_leaves_no_report w (new .dive) rfl "alpine" true m hsocket
  have hok : r.1.isOk = true := by decide +kernel
  obtain ⟨stats, hr⟩ := exists_of_isOk hok
  obtain ⟨_, program, _, _, content, report, -, -, -, -, hread, hreport⟩ := hstats stats hr
  exact ⟨hsocket, hfiles, stats, report, content, hr, hread, hreport⟩

end Adapter
end ContainerDocs

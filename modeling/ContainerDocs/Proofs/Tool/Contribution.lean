import ContainerDocs.Proofs.Image.Merge
import ContainerDocs.Proofs.System.Run

/-!
# What tools contribute

Every field of the statistics of an image comes from one tool. So the contributions of two tools are
apart.

## Main definitions

* `ImageStats.Field.source` — the tool that a field comes from.
* `Tool.Contributes` — what a readable report of a tool gives.

## Main statements

* `Tool.Contributes.apart` — contributions of different tools know no field in common.
* `Adapter.run_contributes` — an adapter gives a contribution of its tool.
-/

namespace ContainerDocs

def ImageStats.Field.source : ImageStats.Field → Tool
  | .architecture | .os | .sizeBytes | .layers => .runtime
  | .platforms => .manifest
  | .distribution | .packageCount | .packages => .syft
  | .vulnerabilities | .severityCounts | .scanned => .grype
  | .efficiency | .wastedBytes => .dive

namespace Tool

/-- What a tool can contribute to the statistics of an image: the statistics of a report of the tool
that is read without a fault. -/
inductive Contributes (image : String) : Tool → ImageStats → Prop where
  | runtime {nesting : Json.Nesting} {output : Bytes} {binary : String} {r : InspectReport}
      (h : InspectReport.read nesting output image binary = .ok r) :
      Contributes image .runtime (r.stats image)
  | manifest {nesting : Json.Nesting} {output : Bytes} {r : ManifestReport}
      (h : ManifestReport.read nesting output = .ok r) :
      Contributes image .manifest (r.stats image)
  | syft {nesting : Json.Nesting} {output : Bytes} {r : PackageReport}
      (h : PackageReport.read nesting output = .ok r) :
      Contributes image .syft r.stats
  | grype {nesting : Json.Nesting} {output : Bytes} {r : VulnerabilityReport} (now : Timestamp)
      (h : VulnerabilityReport.read nesting output = .ok r) :
      Contributes image .grype (r.stats now)
  | dive {nesting : Json.Nesting} {content : Bytes} {r : LayerReport}
      (h : LayerReport.read nesting content = .ok r) :
      Contributes image .dive r.stats

variable {image : String} {tool tool' : Tool} {s t : ImageStats}

/-- A tool knows nothing in the fields of the other tools. -/
theorem Contributes.lacks (h : Contributes image tool s) {f : ImageStats.Field}
    (hf : f.source ≠ tool) : s.lacks f = true := by
  cases h with
  | runtime =>
    cases f with
    | architecture | os | sizeBytes | layers => exact absurd rfl hf
    | _ => rfl
  | manifest =>
    cases f with
    | platforms => exact absurd rfl hf
    | _ => rfl
  | syft =>
    cases f with
    | distribution | packageCount | packages => exact absurd rfl hf
    | _ => rfl
  | grype =>
    cases f with
    | vulnerabilities | severityCounts | scanned => exact absurd rfl hf
    | _ => rfl
  | dive =>
    cases f with
    | efficiency | wastedBytes => exact absurd rfl hf
    | _ => rfl

theorem Contributes.apart (hs : Contributes image tool s) (ht : Contributes image tool' t)
    (hne : tool ≠ tool') : ImageStats.Apart s t := by
  intro f
  by_cases h : f.source = tool
  · exact .inr (ht.lacks (h ▸ hne))
  · exact .inl (hs.lacks h)

end Tool

namespace Adapter

open Run

variable {image : String} {watching : Bool} {w : World} {m m' : Machine}

theorem stopOf_ne_interrupted (e : ReportError) : stopOf e ≠ .interrupted := by
  rw [stopOf]
  split <;> rintro ⟨⟩

/-- What goes on after a report has read it. -/
theorem exec_report_bind {α β : Type} {r : Except ReportError α} {next : α → Run β} {b : β}
    (h : (report r >>= next).exec w m = (.ok b, m')) :
    ∃ a, r = .ok a ∧ (next a).exec w m = (.ok b, m') := by
  cases r with
  | ok a => exact ⟨a, rfl, h⟩
  | error e => cases h

/-- An adapter that gives statistics gives a contribution of its tool. -/
theorem run_contributes {a : Adapter} {s : ImageStats}
    (h : (a.run image watching).exec w m = (.ok s, m')) : a.tool.Contributes image s := by
  obtain ⟨binary, m₁, -, h⟩ := exec_bind_eq_ok.1 h
  cases ht : a.tool with
  | runtime =>
    rw [ht] at h
    obtain ⟨output, m₂, -, h⟩ := exec_bind_eq_ok.1 h
    obtain ⟨surroundings, m₃, -, h⟩ := exec_bind_eq_ok.1 h
    obtain ⟨r, hr, h⟩ := exec_report_bind h
    cases h
    exact .runtime hr
  | manifest =>
    rw [ht] at h
    obtain ⟨surroundings, m₂, -, h⟩ := exec_bind_eq_ok.1 h
    obtain ⟨output, m₃, -, h⟩ := exec_bind_eq_ok.1 h
    obtain ⟨surroundings', m₄, -, h⟩ := exec_bind_eq_ok.1 h
    obtain ⟨r, hr, h⟩ := exec_report_bind h
    cases h
    exact .manifest hr
  | syft =>
    rw [ht] at h
    obtain ⟨output, m₂, -, h⟩ := exec_bind_eq_ok.1 h
    obtain ⟨surroundings, m₃, -, h⟩ := exec_bind_eq_ok.1 h
    obtain ⟨r, hr, h⟩ := exec_report_bind h
    cases h
    exact .syft hr
  | grype =>
    rw [ht] at h
    obtain ⟨output, m₂, -, h⟩ := exec_bind_eq_ok.1 h
    obtain ⟨surroundings, m₃, -, h⟩ := exec_bind_eq_ok.1 h
    obtain ⟨r, hr, h⟩ := exec_report_bind h
    -- The remark on an unreadable time changes the notes only.
    have hs : ∃ m₄, (do return r.stats ((← read).now (← get).clock) : Run ImageStats).exec w m₄ =
        (.ok s, m') := by
      split at h
      · obtain ⟨noted, m₄, -, h⟩ := exec_bind_eq_ok.1 h
        exact ⟨m₄, h⟩
      · exact ⟨m₃, h⟩
    obtain ⟨m₄, h⟩ := hs
    cases h
    exact .grype _ hr
  | dive =>
    rw [ht] at h
    obtain ⟨content, m₂, -, h⟩ := exec_bind_eq_ok.1 h
    obtain ⟨surroundings, m₃, -, h⟩ := exec_bind_eq_ok.1 h
    obtain ⟨r, hr, h⟩ := exec_report_bind h
    cases h
    exact .dive hr

/-! ## Looking for the tool -/

theorem exec_setting? (name : String) (w : World) :
    ∃ value, ∀ m, exec (setting? name) w m = (.ok value, m) :=
  ⟨_, fun _ => rfl⟩

theorem exec_directory (w : World) : ∃ d, ∀ m, exec Tools.directory w m = (.ok d, m) := by
  obtain ⟨value, hvalue⟩ := exec_setting? Tools.directoryVariable w
  have hdirectory : ∀ m, exec Tools.directory w m = _ := fun m => by
    rw [Tools.directory, exec_bind, hvalue]
  cases value with
  | some d => exact ⟨_, fun m => (hdirectory m).trans rfl⟩
  | none => exact ⟨_, fun m => (hdirectory m).trans rfl⟩

/-- What the search for a program finds depends on the files only. -/
theorem exec_lookup? (name : String) (w : World) (fs : Files) :
    ∃ found, ∀ m : Machine, m.files = fs → exec (Tools.lookup? name) w m = (.ok found, m) := by
  cases hfind : w.find? name with
  | some path =>
    refine ⟨some (path, .programs), fun m _ => ?_⟩
    rw [Tools.lookup?, exec_bind, exec_read]
    dsimp only
    rw [hfind]
    rfl
  | none =>
    obtain ⟨d, hd⟩ := exec_directory w
    refine ⟨if fs.isProgram w.place (Path.tidy (Path.join d name)) then
      some (Path.tidy (Path.join d name), .directory) else none, fun m hm => ?_⟩
    rw [Tools.lookup?, exec_bind, exec_read]
    dsimp only
    rw [hfind]
    dsimp only
    rw [exec_bind, hd]
    dsimp only
    rw [exec_bind, exec_get]
    dsimp only
    rw [exec_bind, exec_place, hm]
    dsimp only
    split_ifs <;> rfl

def isThere (a : Adapter) (w : World) (fs : Files) : Bool :=
  match (exec a.locate w { files := fs }).1 with
  | .ok (found, _) => found
  | .error _ => false

/-- The search for a tool changes nothing. -/
theorem exec_locate (a : Adapter) (w : World) (m : Machine) :
    ∃ a', exec a.locate w m = (.ok (a.isThere w m.files, a'), m) := by
  obtain ⟨found, hfound⟩ := exec_lookup? a.tool.program w m.files
  by_cases hruntime : a.tool.usesRuntime = true
  · have hlocate : a.locate = do
        let runtime ← Tools.runtime?
        return (runtime.isSome, { a with binary := runtime }) := if_pos hruntime
    rw [isThere, hlocate]
    exact ⟨_, rfl⟩
  · have hlocate : ∀ m' : Machine, m'.files = m.files → exec a.locate w m' = _ := fun m' hm' => by
      rw [locate, if_neg hruntime, exec_bind, hfound m' hm']
    rw [isThere, hlocate m rfl, hlocate { files := m.files } rfl]
    cases found <;> exact ⟨_, rfl⟩

/-- The search for a tool keeps the tool. -/
theorem locate_tool {a a' : Adapter} {isThere : Bool}
    (h : a.locate.exec w m = (.ok (isThere, a'), m')) : a'.tool = a.tool := by
  rw [locate] at h
  split_ifs at h
  · obtain ⟨runtime, m₁, -, h⟩ := exec_bind_eq_ok.1 h
    cases h
    rfl
  · obtain ⟨found, m₁, -, h⟩ := exec_bind_eq_ok.1 h
    cases found with
    | none =>
      cases h
      rfl
    | some found =>
      cases h
      rfl

end Adapter
end ContainerDocs

import ContainerDocs.Proofs.Analysis.Outcome
import ContainerDocs.Proofs.Tool.Contribution
import Mathlib.Data.List.Pairwise

/-!
# The order in which tools finish

Tools contribute to different fields, so the order in which they finish shows in the order of the
warnings only.

## Main definitions

* `Outcome.Apart` — two outcomes whose statistics know no field in common.
* `SameOutcome` — two analyses with the same findings or the same reason to stop.
* `Analysis.scripted` — a search whose outcome is given.

## Main statements

* `Analysis.foldl_into_perm` — outcomes that are apart can be folded in any order.
* `Analysis.analyze_of_apart` — so an analysis of such outcomes does not depend on their order.
* `Analysis.analyze_any_completion` — the order in which the standard tools finish.
-/

namespace ContainerDocs
namespace Analysis

open Run ImageStats

/-! ## Folding in any order -/

namespace Outcome

def Apart (o o' : Outcome) : Prop :=
  ∀ s t, o.result = .ok (some s) → o'.result = .ok (some t) → ImageStats.Apart s t

instance : Std.Symm Apart where
  symm _ _ h s t hs ht := (h t s ht hs).symm

def warnings (o : Outcome) : List String :=
  match o.result with
  | .error reason => [warning o.name reason]
  | .ok (some s) => s.warnings
  | .ok none => []

theorem into_warnings (s : ImageStats) (o : Outcome) :
    (into s o).warnings = s.warnings ++ o.warnings := by
  rw [into, warnings]
  rcases o.result with reason | (- | t) <;> simp [mergeOption]

theorem withoutWarnings_into (s : ImageStats) (o : Outcome) :
    (into s.withoutWarnings o).withoutWarnings = (into s o).withoutWarnings := by
  rw [into, into]
  rcases o.result with reason | (- | t) <;> rfl

/-- An outcome without statistics brings warnings only. -/
theorem withoutWarnings_into_of_none {o : Outcome} (h : ¬ ∃ t, o.result = .ok (some t))
    (s : ImageStats) : (into s o).withoutWarnings = s.withoutWarnings := by
  rw [into]
  rcases ho : o.result with reason | (- | t)
  · rfl
  · rfl
  · exact absurd ⟨t, ho⟩ h

theorem into_right_comm {o o' : Outcome} (h : Apart o o') (s : ImageStats) :
    (into (into s o) o').withoutWarnings = (into (into s o') o).withoutWarnings := by
  by_cases ho : ∃ t, o.result = .ok (some t)
  · by_cases ho' : ∃ t, o'.result = .ok (some t)
    · obtain ⟨t, ht⟩ := ho
      obtain ⟨t', ht'⟩ := ho'
      simpa [into, ht, ht', mergeOption] using merge_right_comm (h t t' ht ht') s
    · have hn := withoutWarnings_into_of_none ho'
      rw [hn, ← withoutWarnings_into (into s o'), hn, withoutWarnings_into]
  · have hn := withoutWarnings_into_of_none ho
    rw [hn, ← withoutWarnings_into (into s o), hn, withoutWarnings_into]

end Outcome

open Outcome

theorem foldl_into_warnings (s : ImageStats) (os : List Outcome) :
    (os.foldl into s).warnings = s.warnings ++ os.flatMap Outcome.warnings := by
  induction os generalizing s with
  | nil => simp
  | cons o os ih => rw [List.foldl_cons, ih, into_warnings, List.flatMap_cons, List.append_assoc]

theorem withoutWarnings_foldl_into (s : ImageStats) (os : List Outcome) :
    (os.foldl into s).withoutWarnings =
      os.foldl (fun s o => (into s o).withoutWarnings) s.withoutWarnings := by
  induction os generalizing s with
  | nil => rfl
  | cons o os ih => rw [List.foldl_cons, List.foldl_cons, ih, withoutWarnings_into]

/-- Outcomes that are apart can be folded in any order. -/
theorem foldl_into_perm {os os' : List Outcome} (hp : os.Perm os')
    (ha : ∀ o ∈ os, ∀ o' ∈ os, o ≠ o' → Apart o o') (s : ImageStats) :
    SameFindings (os.foldl into s) (os'.foldl into s) where
  fields := by
    rw [withoutWarnings_foldl_into, withoutWarnings_foldl_into]
    refine hp.foldl_eq' (fun o ho o' ho' t => ?_) _
    rcases eq_or_ne o o' with rfl | hne
    · rfl
    · rw [withoutWarnings_into, withoutWarnings_into, into_right_comm (ha o ho o' ho' hne)]
  warnings := by
    rw [foldl_into_warnings, foldl_into_warnings]
    exact (hp.flatMap_right _).append_left _

/-! ## Analyses in any order -/

/-- The same result of two analyses: the same findings or the same reason to stop. -/
inductive SameOutcome : Except Stop ImageStats → Except Stop ImageStats → Prop where
  | findings {s t : ImageStats} (h : SameFindings s t) : SameOutcome (.ok s) (.ok t)
  | stop (reason : Stop) : SameOutcome (.error reason) (.error reason)

variable {image : String} {watching : Bool} {w : World} {m : Machine} {p q : List Nat}

theorem mem_of_arrange {completion : Option (List Nat)} {os : List Outcome} {o : Outcome}
    (h : o ∈ arrange completion os) : o ∈ os := by
  cases completion with
  | none => exact h
  | some places =>
    obtain ⟨i, -, hi⟩ := List.mem_filterMap.1 h
    exact List.mem_of_getElem? hi

/-- An analysis whose outcomes are gathered without an interruption among them has a result. -/
theorem analyze_ok {probes : List (Run Probe)} {os : List Outcome} {m' : Machine}
    (hg : (gather image probes watching).exec w m = (.ok os, m'))
    (hi : ∀ o ∈ os, o.interrupts = false) (completion : Option (List Nat)) :
    ∃ s, ((analyze image probes watching completion).exec w m).1 = .ok s := by
  have hany : (arrange completion os).any interrupts = false :=
    List.any_eq_false.2 fun o ho => by simp [hi o (mem_of_arrange ho)]
  rw [exec_analyze, hg]
  dsimp only
  rw [hany]
  exact ⟨_, rfl⟩

/-- An analysis of outcomes that are apart does not depend on the order in which they come. -/
theorem analyze_of_apart {probes : List (Run Probe)}
    (ha : ∀ os m', (gather image probes watching).exec w m = (.ok os, m') →
      os.Pairwise Outcome.Apart) (hpq : p.Perm q) :
    SameOutcome ((analyze image probes watching (some p)).exec w m).1
      ((analyze image probes watching (some q)).exec w m).1 := by
  rw [exec_analyze, exec_analyze]
  rcases hg : (gather image probes watching).exec w m with ⟨reason | os, m'⟩
  · exact .stop reason
  · have hos : (arrange (some p) os).Perm (arrange (some q) os) := hpq.filterMap _
    dsimp only
    rw [hos.any_eq]
    split_ifs
    · exact .stop .interrupted
    · refine .findings (foldl_into_perm hos ?_ _).finalize
      exact fun o ho o' ho' hne => (ha os m' hg).forall (mem_of_arrange ho) (mem_of_arrange ho') hne

/-- Outcomes of searches for different tools are apart. -/
theorem pairwise_apart {tools : List Tool} {probe : Tool → Run Probe} {os : List Outcome}
    (hd : tools.Nodup)
    (hc : ∀ tool o s, Reports image w (probe tool) o → o.result = .ok (some s) →
      tool.Contributes image s)
    (hr : List.SublistForall₂ (fun o tool => Reports image w (probe tool) o) os tools) :
    os.Pairwise Outcome.Apart := by
  induction hr with
  | nil => exact .nil
  | @cons o tool os tools ho hrest ih =>
    obtain ⟨hnew, hd⟩ := List.nodup_cons.1 hd
    refine List.pairwise_cons.2 ⟨fun o' ho' s t hs ht => ?_, ih hd⟩
    obtain ⟨tool', hmem, hr'⟩ := exists_report hrest ho'
    have hne : tool ≠ tool' := fun h => hnew (h ▸ hmem)
    exact (hc tool o s ho hs).apart (hc tool' o' t hr' ht) hne
  | cons_right _ ih => exact ih (List.nodup_cons.1 hd).2

/-! ## The standard tools -/

/-- What the search for a tool of an adapter reports comes from a run of the tool. -/
theorem exists_run_of_reports {a : Adapter} {o : Outcome} {s : ImageStats}
    (h : Reports image w (a.probe watching) o) (hs : o.result = .ok (some s)) :
    ∃ (a' : Adapter) (m m' : Machine), a'.tool = a.tool ∧
      (a'.run image watching).exec w m = (.ok s, m') := by
  obtain ⟨worker, m₁, m₂, m₃, hp, -, hr⟩ := h
  obtain ⟨⟨isThere, a'⟩, m₄, hl, hp⟩ := exec_bind_eq_ok.1 hp
  cases isThere with
  | false => cases hp
  | true =>
    cases hp
    rw [exec_map, hs] at hr
    rcases hrun : (a'.run image watching).exec w m₃ with ⟨reason | t, m₅⟩
    · rw [hrun] at hr
      cases hr
    · rw [hrun] at hr
      cases hr
      exact ⟨a', m₃, m₅, Adapter.locate_tool hl, hrun⟩

/-- What the search for a tool of an adapter reports is a contribution of the tool. -/
theorem probe_contributes {a : Adapter} {o : Outcome} {s : ImageStats}
    (h : Reports image w (a.probe watching) o) (hs : o.result = .ok (some s)) :
    a.tool.Contributes image s := by
  obtain ⟨a', m, m', htool, hrun⟩ := exists_run_of_reports h hs
  rw [← htool]
  exact Adapter.run_contributes hrun

/-- The tools of the standard adapters, in their order. -/
def tools : List Tool := [.runtime, .manifest, .syft, .grype, .dive]

theorem standardProbes_eq (timeouts : Timeouts) (watching : Bool) :
    standardProbes timeouts watching =
      tools.map fun tool => (Adapter.new tool timeouts).probe watching := by
  rw [standardProbes, Adapter.standard, List.map_map]
  rfl

/-- A search with a given outcome: there is no tool, or the tool ends as given. -/
def scripted (name : String) (outcome : Option (Except Stop ImageStats)) : Run Probe :=
  return match outcome with
    | none => .missing name
    | some result => .available ⟨name, fun _ => some <$> Run.ofExcept result⟩

theorem scripted_result {name : String} {outcome : Option (Except Stop ImageStats)} {o : Outcome}
    (h : Reports image w (scripted name outcome) o) :
    ∃ result, outcome = some result ∧ o.result = result.map some := by
  obtain ⟨worker, m₁, m₂, m₃, hp, -, hr⟩ := h
  cases outcome with
  | none => cases hp
  | some result =>
    cases hp
    refine ⟨result, rfl, ?_⟩
    rw [hr, exec_map, exec_ofExcept]

theorem scripted_interrupts {name : String} {outcome : Option (Except Stop ImageStats)}
    {o : Outcome} (h : Reports image w (scripted name outcome) o)
    (hi : outcome ≠ some (.error .interrupted)) : o.interrupts = false := by
  obtain ⟨result, rfl, hr⟩ := scripted_result h
  refine Bool.eq_false_iff.2 fun ho => hi ?_
  rw [interrupts_eq_true_iff, hr] at ho
  cases result with
  | error reason =>
    cases ho
    rfl
  | ok s => cases ho

theorem scripted_contributes {name : String} {outcome : Option (Except Stop ImageStats)}
    {tool : Tool} {o : Outcome} {s : ImageStats} (h : Reports image w (scripted name outcome) o)
    (hc : ∀ s, outcome = some (.ok s) → tool.Contributes image s)
    (hs : o.result = .ok (some s)) : tool.Contributes image s := by
  obtain ⟨result, rfl, hr⟩ := scripted_result h
  rw [hs] at hr
  cases result with
  | error reason => cases hr
  | ok s =>
    cases hr
    exact hc s rfl

theorem scripted_ok (name : String) (outcome : Option (Except Stop ImageStats)) (w : World)
    (m : Machine) : ∃ found m', (scripted name outcome).exec w m = (.ok found, m') :=
  ⟨_, _, exec_pure _ w m⟩

/-- The result of an analysis does not depend on the order in which the tools finish. For the
standard tools in any world it is the same, or the same stop. Whatever each tool does, short of an
interruption, an accepted image has a result, and every order gives the same findings. -/
theorem analyze_any_completion {p q : List Nat} (hpq : p.Perm q) :
    (∀ image timeouts watching w m,
      SameOutcome
        ((analyze image (standardProbes timeouts watching) watching (some p)).exec w m).1
        ((analyze image (standardProbes timeouts watching) watching (some q)).exec w m).1) ∧
    ∀ image watching w m (names : Tool → String)
      (outcome : Tool → Option (Except Stop ImageStats)),
      (∃ r, validate image = .ok r) →
      (watching = true → isCancelled.exec w m = (.ok false, m)) →
      (∀ tool s, outcome tool = some (.ok s) → tool.Contributes image s) →
      (∀ tool, outcome tool ≠ some (.error .interrupted)) →
      let probes := tools.map fun tool => scripted (names tool) (outcome tool)
      ∃ s t,
        ((analyze image probes watching (some p)).exec w m).1 = .ok s ∧
        ((analyze image probes watching (some q)).exec w m).1 = .ok t ∧ SameFindings s t := by
  have hd : tools.Nodup := by decide
  constructor
  · intro image timeouts watching w m
    rw [standardProbes_eq]
    refine analyze_of_apart (fun os m' hg => ?_) hpq
    exact pairwise_apart hd (fun tool o s hr hs => probe_contributes hr hs) (gather_reports hg)
  · intro image watching w m names outcome hv hc hcontributes hinterrupted probes
    obtain ⟨r, hv⟩ := hv
    have hprobes : ∀ probe ∈ probes, ∀ m, ∃ found m', probe.exec w m = (.ok found, m') := by
      intro probe hp m
      obtain ⟨tool, -, rfl⟩ := List.mem_map.1 hp
      exact scripted_ok _ _ w m
    obtain ⟨os, m', hg⟩ := gather_ok hv hc hprobes
    have hi : ∀ o ∈ os, o.interrupts = false := by
      intro o ho
      obtain ⟨tool, -, hr⟩ := exists_report (gather_reports hg) ho
      exact scripted_interrupts hr (hinterrupted tool)
    have hcon : ∀ tool o s, Reports image w (scripted (names tool) (outcome tool)) o →
        o.result = .ok (some s) → tool.Contributes image s :=
      fun tool o s hr hs => scripted_contributes hr (hcontributes tool) hs
    have hsame : SameOutcome ((analyze image probes watching (some p)).exec w m).1
        ((analyze image probes watching (some q)).exec w m).1 :=
      analyze_of_apart (fun os m' hg => pairwise_apart hd hcon (gather_reports hg)) hpq
    obtain ⟨s, hs⟩ := analyze_ok hg hi (some p)
    obtain ⟨t, ht⟩ := analyze_ok hg hi (some q)
    rw [hs, ht] at hsame
    cases hsame with
    | findings h => exact ⟨s, t, hs, ht, h⟩

/-- Two tools with results and one that fails, in two orders. -/
theorem analyze_any_completion_of_three :
    let w : World := {
      respond := fun _ _ => .fails (.missing "")
      find? := fun _ => none
      environment := []
      directory := "/"
      now := fun _ => ⟨⟨2024, 1, 1⟩, 0, 0, 0, 0, none⟩ }
    let m : Machine := { files := ⟨[]⟩ }
    let manifest : ManifestReport := ⟨[⟨Text.ofString "linux", Text.ofString "arm64"⟩]⟩
    let layers : LayerReport := { wastedBytes := 7 }
    let outcome : Tool → Option (Except Stop ImageStats) := fun
      | .manifest => some (.ok (manifest.stats "alpine"))
      | .grype => some (.error (.failure (.tool .noRuntime)))
      | .dive => some (.ok layers.stats)
      | _ => none
    let probes := tools.map fun tool => scripted tool.program (outcome tool)
    ∃ s t,
      ((analyze "alpine" probes true (some [0, 1, 2])).exec w m).1 = .ok s ∧
      ((analyze "alpine" probes true (some [2, 0, 1])).exec w m).1 = .ok t ∧ SameFindings s t := by
  intro w m manifest layers outcome probes
  have hmanifest : ManifestReport.read .usual (Encoding.encodeString
      ("\x7b\"manifests\": [\x7b\"platform\": " ++
        "\x7b\"os\": \"linux\", \"architecture\": \"arm64\"\x7d\x7d]\x7d")) = .ok manifest := by
    decide +kernel
  have hlayers : LayerReport.read .usual (Encoding.encodeString
      "\x7b\"image\": \x7b\"inefficientBytes\": 7\x7d\x7d") = .ok layers := by
    decide +kernel
  have hvalid : validate "alpine" = .ok ⟨"docker.io", "library/alpine", some "latest", none⟩ := by
    decide +kernel
  obtain ⟨-, hgiven⟩ := analyze_any_completion (p := [0, 1, 2]) (q := [2, 0, 1]) (by decide)
  refine hgiven "alpine" true w m Tool.program outcome ⟨_, hvalid⟩ (fun _ => rfl) ?_ ?_
  · intro tool s h
    cases tool <;> cases h
    · exact .manifest hmanifest
    · exact .dive hlayers
  · intro tool h
    cases tool <;> cases h

end Analysis
end ContainerDocs

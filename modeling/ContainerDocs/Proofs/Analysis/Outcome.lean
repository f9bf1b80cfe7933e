import ContainerDocs.Analysis.Basic
import ContainerDocs.Proofs.System.Run
import Mathlib.Data.List.Forall2

/-!
# Outcomes of tools

An analysis first gathers the outcomes of the tools that are there and then folds them into the
statistics in the order in which the tools finish. An interruption stops the fold, nothing else
does.

## Main definitions

* `Outcome.into` — the statistics with an outcome folded in.
* `Analysis.gather` — the outcomes of the tools that are there.
* `Analysis.Reports` — which outcomes come of the search for a tool.

## Main statements

* `Analysis.exec_mergeAll` — what the fold gives.
* `Analysis.analyze_eq` — an analysis gathers and folds.
* `Analysis.gather_reports` — each outcome comes of one of the searches, in their order.
* `Analysis.exec_gather` — what an analysis that starts gathers.
-/

namespace ContainerDocs
namespace Analysis

open Run

/-! ## Folding -/

namespace Outcome

def interrupts (o : Outcome) : Bool :=
  match o.result with
  | .error .interrupted => true
  | _ => false

theorem interrupts_eq_true_iff {o : Outcome} :
    o.interrupts = true ↔ o.result = .error .interrupted := by
  grind [interrupts]

def into (s : ImageStats) (o : Outcome) : ImageStats :=
  match o.result with
  | .error reason => { s with warnings := s.warnings ++ [warning o.name reason] }
  | .ok found => s.mergeOption found

end Outcome

/-- The fold of outcomes gives all of them folded in, unless one of them is an interruption. -/
theorem exec_mergeAll (image : String) (s : ImageStats) (os : List Outcome) (w : World)
    (m : Machine) :
    ((mergeAll image s os).exec w m).1 =
      if os.any Outcome.interrupts then .error .interrupted else .ok (os.foldl Outcome.into s) := by
  induction os generalizing s m with
  | nil => rfl
  | cons o os ih =>
    rw [mergeAll, List.any_cons, List.foldl_cons, Outcome.interrupts, Outcome.into]
    cases ho : o.result with
    | error reason =>
      cases reason with
      | interrupted => rfl
      | failure f => simp [exec_bind, warn, ih]
      | crash c => simp [exec_bind, warn, ih]
      | aborted => simp [exec_bind, warn, ih]
    | ok found => simp [exec_bind, debug, ih]

/-! ## Gathering -/

def runFound (image : String) (probes : List (Run Probe)) : Run (List Outcome) := do
  let workers ← available probes
  if workers.isEmpty then
    Run.warn ("No analysis tools available for " ++ image)
    return []
  runAll image workers

/-- The outcomes of the tools that are found, unless the analysis does not start. -/
def gather (image : String) (probes : List (Run Probe)) (watching : Bool) :
    Run (List Outcome) := do
  requireValid image
  if watching && (← Run.isCancelled) then Run.fail (.cancelled image)
  runFound image probes

/-- The statistics of outcomes that come in the order in which the tools finish. -/
def conclude (image : String) (completion : Option (List Nat)) (os : List Outcome) :
    Run ImageStats := do
  return (← mergeAll image { imageTag := image } (arrange completion os)).finalize

theorem conclude_nil (image : String) (completion : Option (List Nat)) :
    conclude image completion [] = return ImageStats.finalize { imageTag := image } := by
  cases completion <;> simp [conclude, arrange, mergeAll]

/-- An analysis gathers the outcomes and folds them in the order in which the tools finish. -/
theorem analyze_eq (image : String) (probes : List (Run Probe)) (watching : Bool)
    (completion : Option (List Nat)) :
    analyze image probes watching completion =
      gather image probes watching >>= conclude image completion := by
  have hfound : runFound image probes >>= conclude image completion = (do
      let workers ← available probes
      if workers.isEmpty then
        Run.warn ("No analysis tools available for " ++ image)
        return ImageStats.finalize { imageTag := image }
      let outcomes ← runAll image workers
      conclude image completion outcomes) := by
    rw [runFound, bind_assoc]
    refine bind_congr fun workers => ?_
    split
    · simp only [bind_assoc, pure_bind, conclude_nil]
    · rfl
  simp only [analyze, gather, bind_assoc]
  refine bind_congr fun _ => bind_congr fun cancelled => ?_
  split
  · rw [bind_assoc, hfound]
    rfl
  · rw [hfound]
    rfl

/-- An analysis gives what is gathered, folded and in definite order. -/
theorem exec_analyze (image : String) (probes : List (Run Probe)) (watching : Bool)
    (completion : Option (List Nat)) (w : World) (m : Machine) :
    ((analyze image probes watching completion).exec w m).1 =
      match ((gather image probes watching).exec w m).1 with
      | .error reason => .error reason
      | .ok os =>
        if (arrange completion os).any Outcome.interrupts then .error .interrupted
        else .ok ((arrange completion os).foldl Outcome.into { imageTag := image }).finalize := by
  rw [analyze_eq, exec_bind]
  rcases (gather image probes watching).exec w m with ⟨reason | os, m₁⟩
  · rfl
  · dsimp only
    rw [conclude, bind_pure_comp, exec_map, exec_mergeAll]
    split_ifs <;> rfl

/-! ## Where outcomes come from -/

def Reports (image : String) (w : World) (probe : Run Probe) (o : Outcome) : Prop :=
  ∃ worker m₁ m₂ m₃, probe.exec w m₁ = (.ok (.available worker), m₂) ∧ o.name = worker.name ∧
    o.result = ((worker.run image).exec w m₃).1

section Reports

variable {ι : Type} {probe : ι → Run Probe} {is : List ι} {image : String} {w : World}
  {m m' : Machine}

theorem available_found {workers : List Worker}
    (h : (available (is.map probe)).exec w m = (.ok workers, m')) :
    List.SublistForall₂
      (fun worker i => ∃ m₁ m₂, (probe i).exec w m₁ = (.ok (.available worker), m₂))
      workers is := by
  induction is generalizing m workers with
  | nil =>
    cases h
    exact .nil
  | cons i is ih =>
    obtain ⟨found, m₁, hp, h⟩ := exec_bind_eq_ok.1 h
    cases found with
    | available worker =>
      obtain ⟨others, m₂, ho, h⟩ := exec_bind_eq_ok.1 h
      cases h
      exact .cons ⟨m, m₁, hp⟩ (ih ho)
    | missing name =>
      obtain ⟨-, m₂, -, h⟩ := exec_bind_eq_ok.1 h
      exact .cons_right (ih h)

theorem runAll_results {workers : List Worker} {os : List Outcome}
    (h : (runAll image workers).exec w m = (.ok os, m')) :
    List.Forall₂ (fun o worker => o.name = worker.name ∧
      ∃ m₁, o.result = ((worker.run image).exec w m₁).1) os workers := by
  induction workers generalizing m os with
  | nil =>
    cases h
    exact .nil
  | cons worker workers ih =>
    obtain ⟨result, m₁, hr, h⟩ := exec_bind_eq_ok.1 h
    obtain ⟨others, m₂, ho, h⟩ := exec_bind_eq_ok.1 h
    cases h
    rw [exec_attempt] at hr
    cases hr
    exact .cons ⟨rfl, m, rfl⟩ (ih ho)

theorem reports_of_results {workers : List Worker} {os : List Outcome}
    (hworkers : List.Forall₂
      (fun worker i => ∃ m₁ m₂, (probe i).exec w m₁ = (.ok (.available worker), m₂)) workers is)
    (hresults : List.Forall₂ (fun o worker => o.name = worker.name ∧
      ∃ m₁, o.result = ((worker.run image).exec w m₁).1) os workers) :
    List.Forall₂ (fun o i => Reports image w (probe i) o) os is := by
  induction hworkers generalizing os with
  | nil =>
    cases hresults
    exact .nil
  | cons hworker _ ih =>
    cases hresults with
    | cons ho hrest =>
      obtain ⟨m₁, m₂, hworker⟩ := hworker
      obtain ⟨hname, m₃, hresult⟩ := ho
      exact .cons ⟨_, m₁, m₂, m₃, hworker, hname, hresult⟩ (ih hrest)

theorem runFound_reports {os : List Outcome}
    (h : (runFound image (is.map probe)).exec w m = (.ok os, m')) :
    List.SublistForall₂ (fun o i => Reports image w (probe i) o) os is := by
  obtain ⟨workers, m₁, hfound, h⟩ := exec_bind_eq_ok.1 h
  split at h
  · obtain ⟨_, m₂, -, h⟩ := exec_bind_eq_ok.1 h
    cases h
    exact .nil
  · obtain ⟨found, hworkers, hsublist⟩ := List.sublistForall₂_iff.1 (available_found hfound)
    exact List.sublistForall₂_iff.2
      ⟨found, reports_of_results hworkers (runAll_results h), hsublist⟩

/-- Each gathered outcome comes of one of the searches, in their order. -/
theorem gather_reports {watching : Bool} {os : List Outcome}
    (h : (gather image (is.map probe) watching).exec w m = (.ok os, m')) :
    List.SublistForall₂ (fun o i => Reports image w (probe i) o) os is := by
  obtain ⟨_, m₁, -, h⟩ := exec_bind_eq_ok.1 h
  obtain ⟨cancelled, m₂, -, h⟩ := exec_bind_eq_ok.1 h
  split at h
  · obtain ⟨_, m₃, -, h⟩ := exec_bind_eq_ok.1 h
    exact runFound_reports h
  · exact runFound_reports h

theorem exists_report {os : List Outcome} {o : Outcome}
    (h : List.SublistForall₂ (fun o i => Reports image w (probe i) o) os is) (ho : o ∈ os) :
    ∃ i ∈ is, Reports image w (probe i) o := by
  induction h with
  | nil => cases ho
  | cons hr _ ih =>
    rcases List.mem_cons.1 ho with rfl | ho
    · exact ⟨_, List.mem_cons_self, hr⟩
    · obtain ⟨i, hi, hr⟩ := ih ho
      exact ⟨i, List.mem_cons_of_mem _ hi, hr⟩
  | cons_right _ ih =>
    obtain ⟨i, hi, hr⟩ := ih ho
    exact ⟨i, List.mem_cons_of_mem _ hi, hr⟩

end Reports

/-! ## Analyses that start -/

theorem runAll_ok (image : String) (workers : List Worker) (w : World) (m : Machine) :
    ∃ os m', (runAll image workers).exec w m = (.ok os, m') := by
  induction workers generalizing m with
  | nil => exact ⟨[], m, rfl⟩
  | cons worker workers ih =>
    have hworker := exec_attempt (worker.run image) w m
    obtain ⟨os, m', hrest⟩ := ih ((worker.run image).exec w m).2
    exact ⟨_, m', exec_bind_eq_ok.2 ⟨_, _, hworker, exec_bind_eq_ok.2 ⟨os, m', hrest, rfl⟩⟩⟩

theorem available_ok {probes : List (Run Probe)} {w : World}
    (h : ∀ probe ∈ probes, ∀ m, ∃ found m', probe.exec w m = (.ok found, m')) (m : Machine) :
    ∃ workers m', (available probes).exec w m = (.ok workers, m') := by
  induction probes generalizing m with
  | nil => exact ⟨[], m, rfl⟩
  | cons probe probes ih =>
    obtain ⟨found, m₁, hp⟩ := h probe List.mem_cons_self m
    have ih := ih fun probe hp => h probe (List.mem_cons_of_mem _ hp)
    cases found with
    | available worker =>
      obtain ⟨workers, m', hrest⟩ := ih m₁
      exact ⟨worker :: workers, m',
        exec_bind_eq_ok.2 ⟨_, m₁, hp, exec_bind_eq_ok.2 ⟨workers, m', hrest, rfl⟩⟩⟩
    | missing name =>
      obtain ⟨workers, m', hrest⟩ :=
        ih (exec (info (name ++ " is not installed or not in PATH. Skipping.")) w m₁).2
      exact ⟨workers, m', exec_bind_eq_ok.2 ⟨_, m₁, hp, exec_bind_eq_ok.2 ⟨_, _, rfl, hrest⟩⟩⟩

/-- The analysis of an accepted image looks for the tools and runs them, unless a cancellation was
asked for before. -/
theorem exec_gather {image : String} {probes : List (Run Probe)} {watching : Bool} {w : World}
    {m : Machine} {r : ImageReference} (hv : validate image = .ok r)
    (hc : watching = true → isCancelled.exec w m = (.ok false, m)) :
    (gather image probes watching).exec w m = (runFound image probes).exec w m := by
  have hvalid : (requireValid image).exec w m = (.ok (), m) := by
    rw [requireValid, hv]
    rfl
  obtain ⟨cancelled, hasked⟩ : ∃ cancelled, isCancelled.exec w m = (.ok cancelled, m) := ⟨_, rfl⟩
  have hgo : (watching && cancelled) = false := by
    cases watching with
    | false => rfl
    | true =>
      cases hasked.symm.trans (hc rfl)
      rfl
  rw [gather, exec_bind, hvalid]
  dsimp only
  rw [exec_bind, hasked]
  dsimp only
  rw [hgo]
  rfl

/-- An accepted image gives outcomes, unless a cancellation was asked for before or a search
stops. -/
theorem gather_ok {image : String} {probes : List (Run Probe)} {watching : Bool} {w : World}
    {m : Machine} {r : ImageReference} (hv : validate image = .ok r)
    (hc : watching = true → isCancelled.exec w m = (.ok false, m))
    (h : ∀ probe ∈ probes, ∀ m, ∃ found m', probe.exec w m = (.ok found, m')) :
    ∃ os m', (gather image probes watching).exec w m = (.ok os, m') := by
  obtain ⟨workers, m₁, hfound⟩ := available_ok h m
  rw [exec_gather hv hc, runFound, exec_bind, hfound]
  dsimp only
  split
  · exact ⟨[], _, rfl⟩
  · exact runAll_ok image workers w m₁

end Analysis
end ContainerDocs

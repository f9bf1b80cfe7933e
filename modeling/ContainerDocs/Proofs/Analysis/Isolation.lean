import ContainerDocs.Proofs.Analysis.Completion

/-!
# Failures of tools

A tool that fails leaves a warning and nothing else: all other findings are those of an analysis in
which only the other tools take part, in the same order.

## Main definitions

* `Outcome.succeeds` — whether a tool ended without a failure.
* `Settles` — a search for a tool whose outcome is settled.
* `among` — the order in which the elements of a class come.

## Main statements

* `arrange_filter` — the elements of a class come in the order in which they come among all.
* `Analysis.exec_analyze_settled` — an analysis with settled outcomes has a result.
* `Analysis.analyze_spares_others` — a failure shows in the warnings only.
-/

namespace ContainerDocs
namespace Analysis

open Run ImageStats

/-! ## Failures leave warnings only -/

namespace Outcome

def succeeds (o : Outcome) : Bool := o.result.isOk

theorem withoutWarnings_into_of_fails {o : Outcome} (h : o.succeeds = false) (s : ImageStats) :
    (into s o).withoutWarnings = s.withoutWarnings := by
  refine withoutWarnings_into_of_none ?_ s
  rintro ⟨t, ht⟩
  rw [succeeds, ht] at h
  cases h

@[simp] theorem into_imageTag (s : ImageStats) (o : Outcome) :
    (into s o).imageTag = s.imageTag := by
  rw [into]
  rcases o.result with reason | (- | t) <;> rfl

end Outcome

open Outcome

theorem foldl_into_imageTag (s : ImageStats) (os : List Outcome) :
    (os.foldl into s).imageTag = s.imageTag := by
  induction os generalizing s with
  | nil => rfl
  | cons o os ih => rw [List.foldl_cons, ih, into_imageTag]

/-- Leaving out the failures changes the warnings only. -/
theorem foldl_into_filter_succeeds (s : ImageStats) (os : List Outcome) :
    ((os.filter succeeds).foldl into s).withoutWarnings = (os.foldl into s).withoutWarnings := by
  induction os generalizing s with
  | nil => rfl
  | cons o os ih =>
    cases ho : o.succeeds with
    | true => rw [List.filter_cons_of_pos ho, List.foldl_cons, List.foldl_cons, ih]
    | false =>
      have hkeep := withoutWarnings_into_of_fails ho s
      rw [List.filter_cons_of_neg (by simp [ho]), List.foldl_cons, ih,
        withoutWarnings_foldl_into s, withoutWarnings_foldl_into (into s o), hkeep]

/-! ## The same order among fewer -/

section Among

variable {α : Type} {p : α → Bool} {xs : List α} {i : Nat}

def placeAmong (p : α → Bool) (xs : List α) (i : Nat) : Nat := (xs.take i).countP p

/-- The places of the elements of a class among themselves, in the order in which these elements
come when all elements come in the order of `places`. -/
def among (p : α → Bool) (xs : List α) (places : Option (List Nat)) : Option (List Nat) :=
  places.map fun is => (is.filter fun i => (xs[i]?).any p).map (placeAmong p xs)

theorem getElem?_placeAmong {a : α} (h : xs[i]? = some a) (ha : p a = true) :
    (xs.filter p)[placeAmong p xs i]? = some a := by
  induction xs generalizing i with
  | nil => cases h
  | cons x xs ih =>
    cases i with
    | zero =>
      cases h
      rw [List.filter_cons_of_pos ha]
      rfl
    | succ i =>
      have hrest := ih h
      rw [placeAmong] at hrest ⊢
      by_cases hx : p x = true
      · rw [List.filter_cons_of_pos hx, List.take_succ_cons, List.countP_cons_of_pos hx]
        exact hrest
      · rw [List.filter_cons_of_neg hx, List.take_succ_cons, List.countP_cons_of_neg hx]
        exact hrest

/-- The elements of a class come in the order in which they come among all elements. -/
theorem arrange_filter (p : α → Bool) (xs : List α) (places : Option (List Nat)) :
    arrange (among p xs places) (xs.filter p) = (arrange places xs).filter p := by
  cases places with
  | none => rfl
  | some is =>
    simp only [among, arrange, Option.map_some]
    induction is with
    | nil => rfl
    | cons i is ih =>
      cases hi : xs[i]? with
      | none =>
        rw [List.filter_cons_of_neg (by simp [hi]), List.filterMap_cons_none hi, ih]
      | some a =>
        rw [List.filterMap_cons_some hi]
        by_cases ha : p a = true
        · rw [List.filter_cons_of_pos (by simp [hi, ha]), List.map_cons,
            List.filterMap_cons_some (getElem?_placeAmong hi ha), List.filter_cons_of_pos ha, ih]
        · rw [List.filter_cons_of_neg (by simp [hi, ha]), List.filter_cons_of_neg ha, ih]

end Among

/-! ## Settled outcomes -/

/-- The search for a tool comes out as given on every machine: the tool is missing, or it is there
and has an outcome. What the search and the tool do to the machine is left open. -/
def Settles (image : String) (w : World) (probe : Run Probe) : Option Outcome → Prop
  | none => ∀ m, ∃ name m', probe.exec w m = (.ok (.missing name), m')
  | some o => ∀ m, ∃ worker m', probe.exec w m = (.ok (.available worker), m') ∧
      worker.name = o.name ∧ ∀ m₁, ((worker.run image).exec w m₁).1 = o.result

def settled (name : String) (outcome : Option Outcome) : Run Probe :=
  return match outcome with
    | none => .missing name
    | some o => .available ⟨o.name, fun _ => Run.ofExcept o.result⟩

theorem settles_settled (image : String) (w : World) (name : String) (outcome : Option Outcome) :
    Settles image w (settled name outcome) outcome := by
  cases outcome with
  | none => exact fun m => ⟨name, m, rfl⟩
  | some o => exact fun m => ⟨_, m, rfl, rfl, fun m₁ => by rw [exec_ofExcept]⟩

section Settled

variable {ι : Type} {adapters : List ι} {probe : ι → Run Probe} {outcome : ι → Option Outcome}
  {image : String} {w : World} {m : Machine}

/-- The tools that are there are those with an outcome, each with its own. -/
theorem available_settled (h : ∀ i ∈ adapters, Settles image w (probe i) (outcome i))
    (m : Machine) :
    ∃ workers m', (available (adapters.map probe)).exec w m = (.ok workers, m') ∧
      List.Forall₂ (fun (worker : Worker) (o : Outcome) =>
        worker.name = o.name ∧ ∀ m₁, ((worker.run image).exec w m₁).1 = o.result)
        workers (adapters.filterMap outcome) := by
  induction adapters generalizing m with
  | nil => exact ⟨[], m, rfl, .nil⟩
  | cons i adapters ih =>
    have hi := h i List.mem_cons_self
    have ih := ih fun j hj => h j (List.mem_cons_of_mem _ hj)
    cases ho : outcome i with
    | none =>
      rw [ho] at hi
      obtain ⟨name, m₁, hp⟩ := hi m
      obtain ⟨workers, m', hrest, hw⟩ :=
        ih (exec (info (name ++ " is not installed or not in PATH. Skipping.")) w m₁).2
      refine ⟨workers, m', ?_, ?_⟩
      · exact exec_bind_eq_ok.2 ⟨_, m₁, hp, exec_bind_eq_ok.2 ⟨_, _, rfl, hrest⟩⟩
      · rwa [List.filterMap_cons_none ho]
    | some o =>
      rw [ho] at hi
      obtain ⟨worker, m₁, hp, hname, hrun⟩ := hi m
      obtain ⟨workers, m', hrest, hw⟩ := ih m₁
      refine ⟨worker :: workers, m', ?_, ?_⟩
      · exact exec_bind_eq_ok.2 ⟨_, m₁, hp, exec_bind_eq_ok.2 ⟨workers, m', hrest, rfl⟩⟩
      · rw [List.filterMap_cons_some ho]
        exact .cons ⟨hname, hrun⟩ hw

theorem runAll_settled {workers : List Worker} {os : List Outcome}
    (h : List.Forall₂ (fun (worker : Worker) (o : Outcome) =>
      worker.name = o.name ∧ ∀ m₁, ((worker.run image).exec w m₁).1 = o.result) workers os)
    (m : Machine) : ∃ m', (runAll image workers).exec w m = (.ok os, m') := by
  induction h generalizing m with
  | nil => exact ⟨m, rfl⟩
  | @cons worker o workers os ho _ ih =>
    obtain ⟨hname, hrun⟩ := ho
    obtain ⟨m', hrest⟩ := ih ((worker.run image).exec w m).2
    have hworker : (Adapter.attempt (worker.run image)).exec w m =
        (.ok o.result, ((worker.run image).exec w m).2) := by rw [exec_attempt, hrun]
    refine ⟨m', exec_bind_eq_ok.2 ⟨_, _, hworker, exec_bind_eq_ok.2 ⟨os, m', hrest, ?_⟩⟩⟩
    rw [hname]
    rfl

/-- Settled outcomes are gathered in the order of the searches. -/
theorem gather_settled {r : ImageReference} {watching : Bool} (hv : validate image = .ok r)
    (hc : watching = true → isCancelled.exec w m = (.ok false, m))
    (h : ∀ i ∈ adapters, Settles image w (probe i) (outcome i)) :
    ∃ m', (gather image (adapters.map probe) watching).exec w m =
      (.ok (adapters.filterMap outcome), m') := by
  obtain ⟨workers, m₁, hfound, hworkers⟩ := available_settled h m
  rw [exec_gather hv hc, runFound, exec_bind, hfound]
  dsimp only
  generalize adapters.filterMap outcome = os at hworkers
  cases hworkers with
  | nil => exact ⟨_, rfl⟩
  | cons ho hrest => exact runAll_settled (.cons ho hrest) m₁

/-- An analysis with settled outcomes has a result, unless one of them is an interruption. -/
theorem exec_analyze_settled {r : ImageReference} {watching : Bool} (hv : validate image = .ok r)
    (hc : watching = true → isCancelled.exec w m = (.ok false, m))
    (h : ∀ i ∈ adapters, Settles image w (probe i) (outcome i))
    (hi : ∀ i ∈ adapters, ∀ o, outcome i = some o → o.interrupts = false)
    (completion : Option (List Nat)) :
    ((analyze image (adapters.map probe) watching completion).exec w m).1 =
      .ok ((arrange completion (adapters.filterMap outcome)).foldl into
        { imageTag := image }).finalize := by
  obtain ⟨m', hg⟩ := gather_settled hv hc h
  have hany : (arrange completion (adapters.filterMap outcome)).any interrupts = false := by
    refine List.any_eq_false.2 fun o ho => ?_
    obtain ⟨i, hmem, ho⟩ := List.mem_filterMap.1 (mem_of_arrange ho)
    simp [hi i hmem o ho]
  rw [exec_analyze, hg]
  dsimp only
  rw [hany]
  rfl

theorem filterMap_filter_succeeds :
    (adapters.filter fun i => (outcome i).any succeeds).filterMap outcome =
      (adapters.filterMap outcome).filter succeeds := by
  rw [List.filterMap_filter, List.filter_filterMap]
  congr 1
  funext i
  cases outcome i with
  | none => rfl
  | some o => cases ho : o.succeeds <;> simp [Option.filter, ho]

end Settled

/-- A failing tool does not affect the others. Let an image be accepted, let no cancellation be
asked for before, and let each tool of any list of adapters be missing or end with statistics,
without statistics or with a failure, short of an interruption. Then, in whatever order the tools
finish, the analysis has a result for the image. It differs from the analysis with only the adapters
whose tools succeed, which finish in the same order, in the warnings only. And the warnings are, in
the order in which the tools finish, one for each failure and those of the statistics. -/
theorem analyze_spares_others {ι : Type} {image : String} {r : ImageReference}
    (hv : validate image = .ok r) {watching : Bool} {w : World} {m : Machine}
    (hc : watching = true → isCancelled.exec w m = (.ok false, m))
    {adapters : List ι} {probe : ι → Run Probe} {outcome : ι → Option Outcome}
    (h : ∀ i ∈ adapters, Settles image w (probe i) (outcome i))
    (hi : ∀ i ∈ adapters, ∀ o, outcome i = some o → o.interrupts = false)
    (completion : Option (List Nat)) :
    let outcomes := adapters.filterMap outcome
    let successful := adapters.filter fun i => (outcome i).any succeeds
    ∃ s t,
      ((analyze image (adapters.map probe) watching completion).exec w m).1 = .ok s ∧
      ((analyze image (successful.map probe) watching
        (among succeeds outcomes completion)).exec w m).1 = .ok t ∧
      s.withoutWarnings = t.withoutWarnings ∧
      s.warnings = (arrange completion outcomes).flatMap Outcome.warnings ∧
      s.imageTag = image := by
  intro outcomes successful
  have hfewer : ∀ i ∈ successful, i ∈ adapters := fun i hi => List.mem_of_mem_filter hi
  have hall := exec_analyze_settled hv hc h hi completion
  have hsome := exec_analyze_settled hv hc (fun i hs => h i (hfewer i hs))
    (fun i hs => hi i (hfewer i hs)) (among succeeds outcomes completion)
  rw [filterMap_filter_succeeds, arrange_filter] at hsome
  refine ⟨_, _, hall, hsome, ?_, ?_, ?_⟩
  · exact congrArg ImageStats.finalize (foldl_into_filter_succeeds _ _).symm
  · exact foldl_into_warnings _ _
  · exact foldl_into_imageTag _ _

/-- Four adapters in one order: a failure, a missing tool, no statistics, and statistics with a
warning. -/
theorem analyze_spares_others_of_four :
    let w : World := {
      respond := fun _ _ => .fails (.missing "")
      find? := fun _ => none
      environment := []
      directory := "/"
      now := fun _ => ⟨⟨2024, 1, 1⟩, 0, 0, 0, 0, none⟩ }
    let m : Machine := { files := ⟨[]⟩ }
    let found : ImageStats := { layers := 3, warnings := ["old data"] }
    let outcome : String → Option Outcome := fun
      | "dive" => some ⟨"dive", .error (.failure (.tool (.timedOut ["dive"] (Binary64.ofInt 300))))⟩
      | "grype" => some ⟨"grype", .ok none⟩
      | "docker" => some ⟨"docker", .ok (some found)⟩
      | _ => none
    let adapters := ["dive", "syft", "grype", "docker"]
    let probe := fun name => settled name (outcome name)
    ∃ s t,
      ((analyze "alpine" (adapters.map probe) true (some [2, 0, 1])).exec w m).1 = .ok s ∧
      ((analyze "alpine" (["grype", "docker"].map probe) true (some [1, 0])).exec w m).1 = .ok t ∧
      s.withoutWarnings = t.withoutWarnings ∧
      s.warnings = ["old data", "dive failed: command timed out after 300s: dive"] ∧
      s.imageTag = "alpine" := by
  intro w m found outcome adapters probe
  have hvalid : validate "alpine" = .ok ⟨"docker.io", "library/alpine", some "latest", none⟩ := by
    decide
  have hasked : true = true → isCancelled.exec w m = (.ok false, m) := fun _ => rfl
  have h := analyze_spares_others hvalid hasked
    (fun i (_ : i ∈ adapters) => settles_settled "alpine" w i (outcome i)) ?_ (some [2, 0, 1])
  · exact h
  · intro i hi o ho
    simp only [adapters, List.mem_cons, List.not_mem_nil, or_false] at hi
    rcases hi with rfl | rfl | rfl | rfl <;> cases ho <;> rfl

end Analysis
end ContainerDocs

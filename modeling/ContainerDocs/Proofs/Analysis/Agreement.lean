import ContainerDocs.Proofs.Analysis.Completion
import ContainerDocs.Proofs.Image.Counts
import ContainerDocs.Proofs.Image.Order

/-!
# Counts and lists of an analysis

The numbers in the statistics of an image are those of its lists: the counts of severities, the
number of vulnerabilities and the number of packages.

## Main definitions

* `ImageStats.PackagesOf` — statistics whose packages are those of one report, or none.

## Main statements

* `Analysis.foldl_into_induction` — what folding one outcome keeps, folding all of them keeps.
* `Tool.Contributes.countsAgree`, `Tool.Contributes.packageCount` — the numbers of a contribution.
* `Analysis.counts_agree_with_lists` — the numbers of an analysis.
-/

namespace ContainerDocs

/-! ## The numbers of a contribution -/

/-- A vulnerability scan counts what it lists. -/
theorem VulnerabilityReport.countsAgree (now : Timestamp) (r : VulnerabilityReport) :
    (r.stats now).CountsAgree := by
  intro severity
  have hperm : (r.stats now).vulnerabilities.Perm r.found := List.mergeSort_perm _ _
  refine (Counts.get_ofList _ severity).trans ?_
  rw [hperm.countP_eq, List.count, List.countP_map]
  exact congrArg Nat.cast (List.countP_congr fun v _ => by simp)

namespace Tool.Contributes

variable {image : String} {tool : Tool} {s : ImageStats}

/-- Every contribution counts the vulnerabilities that it lists. -/
theorem countsAgree (h : Contributes image tool s) : s.CountsAgree := by
  cases h with
  | runtime | manifest | syft | dive => exact fun _ => rfl
  | grype now => exact VulnerabilityReport.countsAgree now _

/-- Every contribution gives the number of the packages that it lists. -/
theorem packageCount (h : Contributes image tool s) : s.packageCount = s.packages.length := by
  cases h <;> rfl

theorem nodup_packages (h : Contributes image tool s) : s.packages.Nodup := by
  cases h with
  | runtime | manifest | grype | dive => exact List.nodup_nil
  | syft => exact Package.nodup_sorted _

end Tool.Contributes

/-! ## The packages of one report -/

namespace ImageStats

variable {ps : List Package} {s t : ImageStats}

/-- Statistics whose packages are those of a list, perhaps more than once each, with the length of
the list as their number; or statistics without packages. -/
def PackagesOf (ps : List Package) (s : ImageStats) : Prop :=
  s.packages = [] ∧ s.packageCount = 0 ∨
    (∀ p, p ∈ s.packages ↔ p ∈ ps) ∧ s.packageCount = ps.length

theorem PackagesOf.merge (hs : PackagesOf ps s) (ht : t.packages = [] ∨ t.packages = ps)
    (hcount : t.packageCount = t.packages.length) : PackagesOf ps (s.merge t) := by
  have hpackages : (s.merge t).packages = s.packages ++ t.packages := rfl
  have hkept : (s.merge t).packageCount =
      if t.packageCount = 0 then s.packageCount else t.packageCount := by
    simp [ImageStats.merge, orKeep]
  rcases eq_or_ne t.packages [] with hnone | hsome
  · rw [hnone] at hpackages hcount
    simpa [PackagesOf, hpackages, hkept, hcount] using hs
  · obtain rfl := ht.resolve_left hsome
    have hpos : t.packageCount ≠ 0 := by
      have := List.length_pos_iff.2 hsome
      omega
    refine .inr ⟨fun p => ?_, by rw [hkept, if_neg hpos, hcount]⟩
    rw [hpackages, List.mem_append]
    rcases hs with ⟨hnil, -⟩ | ⟨hmem, -⟩
    · simp [hnil]
    · simp [hmem]

/-- The definite order lists each package once, so their number is right. -/
theorem PackagesOf.finalize (hps : ps.Nodup) (h : PackagesOf ps s) :
    s.finalize.packageCount = s.finalize.packages.length := by
  have hsorted : s.finalize.packages = Package.sorted s.packages := rfl
  rw [hsorted]
  rcases h with ⟨hnil, hcount⟩ | ⟨hmem, hcount⟩
  · rw [hnil, Package.sorted_nil]
    exact hcount
  · have hperm : (Package.sorted s.packages).Perm ps :=
      (List.perm_ext_iff_of_nodup (Package.nodup_sorted _) hps).2 fun p => by simp [hmem]
    rw [hperm.length_eq]
    exact hcount

end ImageStats

namespace Analysis

open Run ImageStats Outcome

/-! ## What a fold of outcomes keeps -/

/-- What does not look at warnings and is kept by merging the statistics of each outcome is kept by
folding the outcomes. -/
theorem foldl_into_induction {P : ImageStats → Prop} {os : List Outcome}
    (hwarnings : ∀ s ws, P s → P { s with warnings := ws })
    (hmerge : ∀ o ∈ os, ∀ t, o.result = .ok (some t) → ∀ s, P s → P (s.merge t))
    {s : ImageStats} (h : P s) : P (os.foldl into s) := by
  induction os generalizing s with
  | nil => exact h
  | cons o os ih =>
    refine ih (fun o' ho' => hmerge o' (List.mem_cons_of_mem _ ho')) ?_
    rw [into]
    rcases ho : o.result with reason | (- | t)
    · exact hwarnings s _ h
    · exact h
    · exact hmerge o List.mem_cons_self t ho s h

variable {image : String} {watching : Bool} {completion : Option (List Nat)} {w : World}
  {m : Machine} {probes : List (Run Probe)} {s : ImageStats}

/-- The result of an analysis is a fold of the gathered outcomes, put into definite order. -/
theorem analyze_eq_ok (h : ((analyze image probes watching completion).exec w m).1 = .ok s) :
    ∃ os m', (gather image probes watching).exec w m = (.ok os, m') ∧
      s = ((arrange completion os).foldl into { imageTag := image }).finalize := by
  rw [exec_analyze] at h
  rcases hg : (gather image probes watching).exec w m with ⟨reason | os, m'⟩
  · rw [hg] at h
    cases h
  · rw [hg] at h
    dsimp only at h
    split_ifs at h
    exact ⟨os, m', rfl, (Except.ok.inj h).symm⟩

/-- An analysis whose tools count what they list counts what it lists. -/
theorem analyze_countsAgree
    (hall : ∀ probe ∈ probes, ∀ o t, Reports image w probe o → o.result = .ok (some t) →
      t.CountsAgree)
    (h : ((analyze image probes watching completion).exec w m).1 = .ok s) : s.CountsAgree := by
  obtain ⟨os, m', hg, rfl⟩ := analyze_eq_ok h
  rw [← List.map_id probes] at hg
  refine (foldl_into_induction (P := CountsAgree) ?_ ?_ (.start image)).finalize
  · exact fun s ws hs => hs
  · intro o ho t ht s hs
    obtain ⟨probe, hp, hr⟩ := exists_report (gather_reports hg) (mem_of_arrange ho)
    exact hs.merge (hall probe hp o t hr ht)

/-- Of outcomes that are apart only one has packages. -/
theorem exists_packages {os : List Outcome} (ha : os.Pairwise Outcome.Apart)
    (hn : ∀ o ∈ os, ∀ t, o.result = .ok (some t) → t.packages.Nodup) :
    ∃ ps : List Package, ps.Nodup ∧ ∀ o ∈ os, ∀ t, o.result = .ok (some t) →
      t.packages = [] ∨ t.packages = ps := by
  by_cases hsome : ∃ o ∈ os, ∃ t, o.result = .ok (some t) ∧ t.packages ≠ []
  · obtain ⟨o, ho, t, ht, hne⟩ := hsome
    refine ⟨t.packages, hn o ho t ht, fun o' ho' t' ht' => ?_⟩
    rcases eq_or_ne o o' with rfl | hne'
    · cases ht.symm.trans ht'
      exact .inr rfl
    · rcases ha.forall ho ho' hne' t t' ht ht' .packages with hl | hl
      · exact absurd (List.isEmpty_iff.1 hl) hne
      · exact .inl (List.isEmpty_iff.1 hl)
  · push Not at hsome
    exact ⟨[], List.nodup_nil, fun o ho t ht => .inl (hsome o ho t ht)⟩

/-- An analysis with the standard tools gives the number of the packages that it lists. -/
theorem standard_packageCount {timeouts : Timeouts}
    (h : ((analyze image (standardProbes timeouts watching) watching completion).exec w m).1 =
      .ok s) : s.packageCount = s.packages.length := by
  obtain ⟨os, m', hg, rfl⟩ := analyze_eq_ok h
  rw [standardProbes_eq] at hg
  have hreports := gather_reports hg
  have hcontributes : ∀ o ∈ os, ∀ t, o.result = .ok (some t) →
      ∃ tool : Tool, tool.Contributes image t := by
    intro o ho t ht
    obtain ⟨tool, -, hr⟩ := exists_report hreports ho
    exact ⟨tool, probe_contributes hr ht⟩
  have ha := pairwise_apart (by decide) (fun tool o s hr hs => probe_contributes hr hs) hreports
  obtain ⟨ps, hps, hone⟩ := exists_packages ha fun o ho t ht =>
    (hcontributes o ho t ht).elim fun _ hc => hc.nodup_packages
  refine PackagesOf.finalize hps (foldl_into_induction (fun s ws hs => hs) ?_ (.inl ⟨rfl, rfl⟩))
  intro o ho t ht s hs
  have ho := mem_of_arrange ho
  obtain ⟨tool, hc⟩ := hcontributes o ho t ht
  exact hs.merge (hone o ho t ht) hc.packageCount

/-- The counts of an analysis agree with its lists. If every tool counts the vulnerabilities that it
lists, then so does the analysis, whichever tools there are and in whatever order they finish; every
readable vulnerability scan does. With the standard tools, whatever they print, each severity is
counted as often as it is listed, the counts add up to the number of vulnerabilities, the number of
packages is that of the listed ones, and no two of these have the same name and version. -/
theorem counts_agree_with_lists :
    (∀ image probes watching completion w m s,
      (∀ probe ∈ probes, ∀ o t, Reports image w probe o → o.result = .ok (some t) →
        t.CountsAgree) →
      ((analyze image probes watching completion).exec w m).1 = .ok s → s.CountsAgree) ∧
    (∀ nesting output now r, VulnerabilityReport.read nesting output = .ok r →
      (r.stats now).CountsAgree) ∧
    ∀ image timeouts watching completion w m s,
      ((analyze image (standardProbes timeouts watching) watching completion).exec w m).1 =
        .ok s →
      (∀ severity,
        s.vulnerabilityCount severity = s.vulnerabilities.countP (·.severity = severity)) ∧
      (s.severityCounts.entries.map (·.2)).sum = s.vulnerabilities.length ∧
      s.packageCount = s.packages.length ∧
      (s.packages.map fun p => (p.name, p.version)).Nodup := by
  refine ⟨fun image probes watching completion w m s hall h => analyze_countsAgree hall h,
    fun nesting output now r _ => r.countsAgree now,
    fun image timeouts watching completion w m s h => ?_⟩
  have hagree : s.CountsAgree := by
    refine analyze_countsAgree (fun probe hp o t hr ht => ?_) h
    rw [standardProbes_eq] at hp
    obtain ⟨tool, -, rfl⟩ := List.mem_map.1 hp
    exact (probe_contributes hr ht).countsAgree
  refine ⟨hagree, hagree.sum, standard_packageCount h, ?_⟩
  obtain ⟨os, m', -, rfl⟩ := analyze_eq_ok h
  refine (Package.nodup_sorted _).map fun p q hpq => ?_
  cases p
  cases q
  cases hpq
  rfl

/-- A scan with an odd severity and a missing one: it is counted as it is listed, so is an analysis
in which two tools report it, and so is an analysis with a tool that prints it and one that prints
packages. -/
theorem counts_agree_with_lists_of_scan :
    let packages := Encoding.encodeString
      ("\x7b\"artifacts\": [\x7b\"name\": \"zlib\", \"version\": \"1.3\"\x7d, " ++
        "\x7b\"name\": \"musl\"\x7d, \x7b\"name\": \"zlib\", \"version\": \"1.3\"\x7d]\x7d")
    let scan := Encoding.encodeString
      ("\x7b\"matches\": [\x7b\"vulnerability\": " ++
        "\x7b\"id\": \"CVE-1\", \"severity\": \"Odd\"\x7d\x7d, " ++
        "\x7b\"vulnerability\": \x7b\"id\": \"CVE-2\"\x7d\x7d]\x7d")
    let report : VulnerabilityReport :=
      ⟨[], [⟨Text.ofString "CVE-1", Text.ofString "Odd", [], []⟩,
        ⟨Text.ofString "CVE-2", Text.ofString "Unknown", [], []⟩]⟩
    let w : World := {
      respond := fun _ command =>
        if command = ["/usr/bin/syft", "alpine", "-o", "json"] then .runs { output := packages }
        else if command = ["/usr/bin/grype", "alpine", "-o", "json"] then .runs { output := scan }
        else .fails (.missing "")
      find? := fun name =>
        if name = "syft" ∨ name = "grype" then some ("/usr/bin/" ++ name) else none
      environment := []
      directory := "/"
      now := fun _ => ⟨⟨2024, 1, 1⟩, 0, 0, 0, 0, none⟩ }
    let m : Machine := { files := ⟨[]⟩ }
    let twice := ["a", "b"].map fun name => scripted name (some (.ok (report.stats (w.now 0))))
    VulnerabilityReport.read .usual scan = .ok report ∧ (report.stats (w.now 0)).CountsAgree ∧
    (∃ s, ((analyze "alpine" twice true none).exec w m).1 = .ok s ∧ s.CountsAgree) ∧
    ∃ s, ((analyze "alpine" (standardProbes {} true) true (some [1, 0])).exec w m).1 = .ok s ∧
      s.severityCounts = .ofList [Text.ofString "Odd", Text.ofString "Unknown"] ∧
      s.vulnerabilities.countP (·.severity = Text.ofString "Odd") = 1 ∧
      s.vulnerabilities.length = 2 ∧
      s.packageCount = s.packages.length ∧
      (s.packages.map fun p => (p.name, p.version)).Nodup := by
  intro packages scan report w m twice
  have hread : VulnerabilityReport.read .usual scan = .ok report := by decide +kernel
  obtain ⟨hany, hscan, hstandard⟩ := counts_agree_with_lists
  have hagree := hscan .usual scan (w.now 0) report hread
  refine ⟨hread, hagree, ?_, ?_⟩
  · obtain ⟨s, hs⟩ : ∃ s, ((analyze "alpine" twice true none).exec w m).1 = .ok s :=
      exists_of_isOk (by decide +kernel)
    refine ⟨s, hs, hany _ _ _ _ _ _ s (fun probe hp o t hr ht => ?_) hs⟩
    obtain ⟨name, -, rfl⟩ := List.mem_map.1 hp
    obtain ⟨result, hresult, ho⟩ := scripted_result hr
    cases hresult
    cases ho.symm.trans ht
    exact hagree
  · let result := ((analyze "alpine" (standardProbes {} true) true (some [1, 0])).exec w m).1
    obtain ⟨s, hs, hcounts⟩ : ∃ s, result = .ok s ∧
        s.severityCounts = .ofList [Text.ofString "Odd", Text.ofString "Unknown"] := by
      have hcounts : result.map (·.severityCounts) =
          .ok (.ofList [Text.ofString "Odd", Text.ofString "Unknown"]) := by
        decide +kernel
      cases hr : result with
      | error reason =>
        rw [hr] at hcounts
        cases hcounts
      | ok s =>
        rw [hr] at hcounts
        exact ⟨s, rfl, Except.ok.inj hcounts⟩
    obtain ⟨hcount, hsum, hpackages, hdistinct⟩ := hstandard _ _ _ _ _ _ s hs
    have hodd := hcount (Text.ofString "Odd")
    rw [vulnerabilityCount, hcounts] at hodd
    rw [hcounts] at hsum
    have hone : (Counts.ofList [Text.ofString "Odd", Text.ofString "Unknown"]).get
        (Text.ofString "Odd") = 1 := by decide
    have htwo : (s.vulnerabilities.length : Int) = 2 := hsum.symm
    refine ⟨s, hs, hcounts, ?_, ?_, hpackages, hdistinct⟩
    · exact_mod_cast hodd.symm.trans hone
    · exact_mod_cast htwo

end Analysis
end ContainerDocs

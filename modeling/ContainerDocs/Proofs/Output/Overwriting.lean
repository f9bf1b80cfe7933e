import ContainerDocs.Proofs.Output.Bytes
import ContainerDocs.Proofs.Output.Sections
import ContainerDocs.Proofs.Text.Blank

/-!
# Writing a section over itself

Putting a report into a document exchanges one region, which reaches from the first begin marker to
the first end marker after it. What is written is the only place that a later report goes to, so the
last one of several reports for a section is the one that stays.

## Main definitions

* `Section.CutsAt` — a document taken apart at the region of a section.

## Main statements

* `Section.region?_eq_some_iff_cutsAt` — the region is where the document is taken apart.
* `Section.isIn_iff_markers` — a section is there if an end marker follows any begin marker.
* `Section.exists_body` — a report is its body between line breaks.
* `Section.inject_bind_inject` — the second of two injections counts.
* `Section.inject_overwrites` — an injection splices one region, and the last one counts.
-/

namespace ContainerDocs
namespace Section

variable {d d' before inside after report : Text} {name : String}

/-- A document taken apart at the region of a section: the begin marker is the first one of the
document and the end marker the first one behind it. -/
structure CutsAt (d : Text) (name : String) (before inside after : Text) : Prop where
  text : d = before ++ Text.ofString (beginMarker name) ++ inside ++
    Text.ofString (endMarker name) ++ after
  begin_first : ∀ x y, d = x ++ Text.ofString (beginMarker name) ++ y → before.length ≤ x.length
  end_first : ∀ x y, inside ++ Text.ofString (endMarker name) ++ after =
    x ++ Text.ofString (endMarker name) ++ y → inside.length ≤ x.length

/-- The region of a section is the one at which the document is taken apart. -/
theorem region?_eq_some_iff_cutsAt :
    region? d name = some (before, after) ↔ ∃ inside, CutsAt d name before inside after := by
  rw [region?_eq_some_iff]
  constructor
  · rintro ⟨inside, rest, hbegin, hend⟩
    obtain ⟨hd, hfirst⟩ := cut?_eq_some_iff.1 hbegin
    obtain ⟨rfl, hnext⟩ := cut?_eq_some_iff.1 hend
    exact ⟨inside, by rw [hd]; simp, hfirst, hnext⟩
  · rintro ⟨inside, h⟩
    refine ⟨inside, inside ++ Text.ofString (endMarker name) ++ after, ?_, ?_⟩
    · exact cut?_eq_some_iff.2 ⟨by rw [h.text]; simp, h.begin_first⟩
    · exact cut?_eq_some_iff.2 ⟨rfl, h.end_first⟩

/-- A document has a section if some begin marker is followed by an end marker: then so is the
first one. -/
theorem isIn_iff_markers :
    isIn d name = true ↔ ∃ before inside after, d = before ++ Text.ofString (beginMarker name) ++
      inside ++ Text.ofString (endMarker name) ++ after := by
  rw [isIn_iff]
  constructor
  · rintro ⟨x, y, h⟩
    obtain ⟨inside, hd⟩ := exists_inside h
    exact ⟨x, inside, y, hd⟩
  · rintro ⟨before, inside, after, hd⟩
    have hd : d = before ++ Text.ofString (beginMarker name) ++
        (inside ++ Text.ofString (endMarker name) ++ after) := by
      rw [hd]
      simp
    have hfound : Text.ofString (beginMarker name) <:+: d := ⟨before, _, hd.symm⟩
    obtain ⟨x, rest, hbegin⟩ := exists_cut? hfound
    -- The end marker stands behind the first begin marker as well.
    have hrest := suffix_of_cut? hbegin hd
    have hnext : Text.ofString (endMarker name) <:+: rest :=
      List.IsInfix.trans ⟨inside, after, rfl⟩ hrest.isInfix
    obtain ⟨mid, y, hend⟩ := exists_cut? hnext
    exact ⟨x, y, region?_eq_some_iff.2 ⟨mid, rest, hbegin, hend⟩⟩

/-- A report is its body between line breaks, and the body neither starts nor ends with one. -/
theorem exists_body (report : Text) : ∃ m n,
    report = List.replicate m (CodePoint.ofChar '\n') ++ body report ++
      List.replicate n (CodePoint.ofChar '\n') ∧
    (body report).head? ≠ some (CodePoint.ofChar '\n') ∧
    (body report).getLast? ≠ some (CodePoint.ofChar '\n') := by
  obtain ⟨lead, tail, hlead, htail, hreport⟩ :=
    Blank.exists_trim (fun c => decide (c = CodePoint.ofChar '\n')) report
  have hfirst : ∀ c ∈ (body report).head?, decide (c = CodePoint.ofChar '\n') = false :=
    Blank.not_head?_trim
  have hlast : ∀ c ∈ (body report).getLast?, decide (c = CodePoint.ofChar '\n') = false :=
    Blank.not_getLast?_trimRight
  refine ⟨lead.length, tail.length, ?_, fun h => ?_, fun h => ?_⟩
  · have hlead : lead = List.replicate lead.length (CodePoint.ofChar '\n') :=
      List.eq_replicate_of_mem fun c hc => of_decide_eq_true (hlead c hc)
    have htail : tail = List.replicate tail.length (CodePoint.ofChar '\n') :=
      List.eq_replicate_of_mem fun c hc => of_decide_eq_true (htail c hc)
    rw [← hlead, ← htail]
    exact hreport
  · exact absurd rfl (of_decide_eq_false (hfirst _ h))
  · exact absurd rfl (of_decide_eq_false (hlast _ h))

theorem inject_of_not_isIn (h : isIn d name = false) (report : Text) :
    inject d name report = .error (.noMarkers (nameOf name)) := by
  rw [inject, not_isIn_iff.1 h]

/-- An injection into a section that is there exchanges what is between the markers. -/
theorem exists_inject_of_isIn (h : isIn d name = true) (report : Text) :
    ∃ before inside after, CutsAt d name before inside after ∧
      inject d name report = .ok (before ++ Text.ofString (beginMarker name) ++ "\n" ++
        body report ++ "\n" ++ Text.ofString (endMarker name) ++ after) := by
  obtain ⟨before, after, hregion⟩ := isIn_iff.1 h
  obtain ⟨inside, hcut⟩ := region?_eq_some_iff_cutsAt.1 hregion
  refine ⟨before, inside, after, hcut, ?_⟩
  rw [inject, hregion, written]
  simp

theorem inject_eq_error_iff :
    inject d name report = .error (.noMarkers (nameOf name)) ↔ isIn d name = false := by
  refine ⟨fun h => ?_, fun h => inject_of_not_isIn h report⟩
  by_contra hin
  obtain ⟨_, _, _, -, hok⟩ := exists_inject_of_isIn (by simpa using hin) report
  rw [hok] at h
  cases h

/-! ## A section that is written twice -/

section Twice

variable (hname : '\n' ∉ name.toList) (hreport : ¬ Text.ofString (endMarker name) <:+: report)

include hname hreport

/-- A section that has been written is found again between the same parts of the document. -/
theorem region?_of_written (h : region? d name = some (before, after)) :
    region? (before ++ written name report ++ after) name = some (before, after) := by
  have hbody : ¬ Text.ofString (endMarker name) <:+: body report :=
    fun h => hreport (h.trans (body_isInfix report))
  rw [List.append_assoc, region?_append_written hname h, cut?_eq_none_iff.2 hbody]

theorem isIn_of_inject (h : inject d name report = .ok d') : isIn d' name = true := by
  cases hregion : region? d name with
  | none =>
    rw [inject, hregion] at h
    cases h
  | some parts =>
    rw [inject, hregion] at h
    cases h
    exact isIn_iff.2 ⟨_, _, region?_of_written hname hreport hregion⟩

/-- The second of two injections gives what it would have given at once. -/
theorem inject_bind_inject (report' : Text) :
    (inject d name report >>= fun d' => inject d' name report') = inject d name report' := by
  cases hregion : region? d name with
  | none =>
    rw [inject, inject, hregion]
    rfl
  | some parts =>
    rw [inject, inject, hregion]
    change inject _ name report' = _
    rw [inject, region?_of_written hname hreport hregion]

end Twice

/-- An injection splices exactly one region, and of several injections the last one counts. It fails
exactly if no begin marker is followed by an end marker. Otherwise everything before the first begin
marker and after the first end marker behind it stays, and between these two stands the report,
without the line breaks at its ends, on lines of its own. Unless the name holds a line break or the
report an end marker, another injection gives what it would have given at once. -/
theorem inject_overwrites (d : Text) (name : String) (report : Text) :
    (inject d name report = .error (.noMarkers (nameOf name)) ↔ isIn d name = false) ∧
    (isIn d name = true ↔ ∃ before inside after, d = before ++
      Text.ofString (beginMarker name) ++ inside ++ Text.ofString (endMarker name) ++ after) ∧
    (isIn d name = true → ∃ before inside after, CutsAt d name before inside after ∧
      inject d name report = .ok (before ++ Text.ofString (beginMarker name) ++ "\n" ++
        body report ++ "\n" ++ Text.ofString (endMarker name) ++ after)) ∧
    (∃ m n, report = List.replicate m (CodePoint.ofChar '\n') ++ body report ++
        List.replicate n (CodePoint.ofChar '\n') ∧
      (body report).head? ≠ some (CodePoint.ofChar '\n') ∧
      (body report).getLast? ≠ some (CodePoint.ofChar '\n')) ∧
    ('\n' ∉ name.toList → ¬ Text.ofString (endMarker name) <:+: report →
      (∀ report', (inject d name report >>= fun d' => inject d' name report') =
        inject d name report') ∧
      (inject d name report >>= fun d' => inject d' name report) = inject d name report ∧
      ∀ d', inject d name report = .ok d' → isIn d' name = true) := by
  refine ⟨inject_eq_error_iff, isIn_iff_markers, fun h => exists_inject_of_isIn h report,
    exists_body report, fun hname hreport => ?_⟩
  have hagain := inject_bind_inject (d := d) hname hreport
  exact ⟨hagain, hagain report, fun d' => isIn_of_inject hname hreport⟩

/-- A report that holds begin markers and half of an end marker goes into a document whose first
begin marker is not closed before the next one, and another report takes its place. -/
theorem inject_overwrites_of_markers :
    let d := Text.ofString ("a <!-- BEGIN: x --><!-- BEGIN: x -->\nold<!-- END: x --> b\n" ++
      "<!-- END: x -->")
    let report := Text.ofString "\n\n<!-- BEGIN: x -->\n<!-- END: x\n"
    '\n' ∉ "x".toList ∧ ¬ Text.ofString (endMarker "x") <:+: report ∧
    inject d "x" report = .ok (Text.ofString ("a <!-- BEGIN: x -->\n<!-- BEGIN: x -->\n" ++
      "<!-- END: x\n<!-- END: x --> b\n<!-- END: x -->")) ∧
    (inject d "x" report >>= fun d' => inject d' "x" "new") =
      .ok (Text.ofString "a <!-- BEGIN: x -->\nnew\n<!-- END: x --> b\n<!-- END: x -->") := by
  intro d report
  have hname : '\n' ∉ "x".toList := by decide
  have hreport : ¬ Text.ofString (endMarker "x") <:+: report := by decide +kernel
  refine ⟨hname, hreport, by decide +kernel, ?_⟩
  rw [((inject_overwrites d "x" report).2.2.2.2 hname hreport).1 "new"]
  decide +kernel

end Section
end ContainerDocs

import ContainerDocs.Proofs.Text.Blank
import ContainerDocs.Text.Lines
import Mathlib.Data.List.Basic

/-!
# Lines and the blanks at their edges

Lines that hold no line break and are each ended by a line feed are the lines of their text. Blanks
that are put in at the start or at the end of a line change nothing but what stripping takes
away from that line, and the style of the line ends does not show in the lines at all.

## Main definitions

* `Lines.IsGap` — blanks that end no line.
* `Lines.IsEdge` — a place at the start or at the end of a line.
* `Lines.Indented` — a text with gaps put in at the edges of its lines.
* `Lines.withEnds` — a text with another line end in the place of each line feed.

## Main statements

* `Lines.split_terminated` — cutting undoes ending each line.
* `Lines.split_append` — a text cut at the end of a line.
* `Lines.split_gap` — what a gap at the edge of a line does to the lines.
* `Lines.split_withEnds` — the lines of a text with other line ends.
-/

namespace ContainerDocs

namespace Lines

/-! ## Ended lines -/

/-- The text of lines that are each ended by a line feed. -/
def terminated (lines : List (List Char)) : List Char := lines.flatMap (· ++ ['\n'])

theorem split_cons {c : Char} (rest : List Char) (hc : c ≠ '\r') :
    split (c :: rest) =
      if isBreak c then [] :: split rest
      else
        match split rest with
        | [] => [[c]]
        | line :: lines => (c :: line) :: lines := by
  have h : ∀ after, c = '\r' → rest = '\n' :: after → False := fun _ h => absurd h hc
  exact split.eq_3 c rest h

theorem split_append_cons {line : List Char} (rest : List Char)
    (h : ∀ c ∈ line, isBreak c = false) : split (line ++ '\n' :: rest) = line :: split rest := by
  induction line with
  | nil => rw [List.nil_append, split_cons rest (by decide), if_pos (by decide)]
  | cons c line ih =>
    have hb : isBreak c = false := h c (by simp)
    have hr : c ≠ '\r' := by
      rintro rfl
      exact absurd hb (by decide)
    rw [List.cons_append, split_cons _ hr, ih fun d hd => h d (by simp [hd])]
    simp [hb]

/-- Cutting a text into lines undoes ending each line. -/
theorem split_terminated (lines : List (List Char))
    (h : ∀ line ∈ lines, ∀ c ∈ line, isBreak c = false) : split (terminated lines) = lines := by
  induction lines with
  | nil => rfl
  | cons line lines ih =>
    have ht : terminated (line :: lines) = line ++ '\n' :: terminated lines := by
      simp [terminated]
    rw [ht, split_append_cons _ (h line (by simp)), ih fun l hl => h l (by simp [hl])]

variable {cs ds line line' above below left right before after gap : List Char}

/-! ## Cuts at the ends of lines -/

def IsOneLine (line : List Char) : Prop := ∀ c ∈ line, isBreak c = false

theorem ne_return_of_not_isBreak {c : Char} (h : isBreak c = false) : c ≠ '\r' := by
  rintro rfl
  exact absurd h (by decide)

/-- A character in a line stands in front of the first line of the rest. -/
theorem split_plain_cons {c : Char} (rest : List Char) (hc : isBreak c = false) :
    split (c :: rest) = (c :: (split rest).headD []) :: (split rest).tail := by
  rw [split_cons rest (ne_return_of_not_isBreak hc), if_neg (by simp [hc])]
  cases split rest <;> rfl

/-- A line end that is not the first half of a pair ends a line. -/
theorem split_break_cons {c : Char} (rest : List Char) (hc : isBreak c = true)
    (hpair : ¬ (c = '\r' ∧ rest.head? = some '\n')) : split (c :: rest) = [] :: split rest := by
  have h : ∀ after, c = '\r' → rest = '\n' :: after → False := by
    rintro after rfl rfl
    exact hpair ⟨rfl, rfl⟩
  rw [split.eq_3 c rest h, if_pos hc]

theorem split_pair_cons (rest : List Char) : split ('\r' :: '\n' :: rest) = [] :: split rest := rfl

/-- A text that starts with a line end starts with an empty line. -/
theorem exists_split_break_cons {c : Char} (rest : List Char) (hc : isBreak c = true) :
    ∃ lines, split (c :: rest) = [] :: lines := by
  by_cases hpair : c = '\r' ∧ rest.head? = some '\n'
  · obtain ⟨rfl, hhead⟩ := hpair
    obtain ⟨after, rfl⟩ := List.head?_eq_some_iff.1 hhead
    exact ⟨split after, split_pair_cons after⟩
  · exact ⟨split rest, split_break_cons rest hc hpair⟩

theorem split_cons_ne_nil (c : Char) (rest : List Char) : split (c :: rest) ≠ [] := by
  cases hc : isBreak c with
  | true =>
    obtain ⟨lines, hlines⟩ := exists_split_break_cons rest hc
    simp [hlines]
  | false => simp [split_plain_cons rest hc]

theorem getLast?_cons_of_getLast? {α : Type} {a b : α} {as : List α} (h : as.getLast? = some b) :
    (a :: as).getLast? = some b := by
  rw [List.getLast?_cons, h, Option.getD_some]

/-- A text that is cut at the end of a line has the lines of its two parts. -/
theorem split_append (hend : ∀ c ∈ cs.getLast?, isBreak c = true)
    (hpair : ¬ (cs.getLast? = some '\r' ∧ ds.head? = some '\n')) :
    split (cs ++ ds) = split cs ++ split ds := by
  induction cs using split.induct with
  | case1 => rfl
  | case2 rest ih =>
    have hrest := ih (fun c hc => hend c (getLast?_cons_of_getLast? (getLast?_cons_of_getLast? hc)))
      fun h => hpair ⟨getLast?_cons_of_getLast? (getLast?_cons_of_getLast? h.1), h.2⟩
    rw [List.cons_append, List.cons_append, split_pair_cons, split_pair_cons, hrest,
      List.cons_append]
  | case3 c rest hc hb ih =>
    have hrest := ih (fun d hd => hend d (getLast?_cons_of_getLast? hd))
      fun h => hpair ⟨getLast?_cons_of_getLast? h.1, h.2⟩
    have hsingle : ¬ (c = '\r' ∧ rest.head? = some '\n') := by
      rintro ⟨rfl, hhead⟩
      obtain ⟨after, rfl⟩ := List.head?_eq_some_iff.1 hhead
      exact hc after rfl rfl
    rw [List.cons_append, split_break_cons _ hb hsingle, split_break_cons _ hb, hrest,
      List.cons_append]
    rintro ⟨rfl, hhead⟩
    cases rest with
    | nil => exact hpair ⟨rfl, hhead⟩
    | cons d rest => exact hsingle ⟨rfl, hhead⟩
  | case4 c rest hc hb hnil ih =>
    -- The last character would have to end a line.
    cases rest with
    | nil => exact absurd (hend c rfl) hb
    | cons d rest => exact absurd hnil (split_cons_ne_nil d rest)
  | case5 c rest hc hb line lines hs ih =>
    have hrest := ih (fun d hd => hend d (getLast?_cons_of_getLast? hd))
      fun h => hpair ⟨getLast?_cons_of_getLast? h.1, h.2⟩
    have hplain : isBreak c = false := by simpa using hb
    rw [List.cons_append, split_plain_cons _ hplain, split_plain_cons _ hplain, hrest, hs]
    rfl

/-- A line is followed by the same lines whatever stands in it. -/
theorem exists_split_append (hne : below ≠ []) (hbreak : ∀ c ∈ below.head?, isBreak c = true) :
    ∃ lines, ∀ line, IsOneLine line → split (line ++ below) = line :: lines := by
  obtain ⟨b, rest, rfl⟩ := List.exists_cons_of_ne_nil hne
  obtain ⟨lines, hlines⟩ := exists_split_break_cons rest (hbreak b rfl)
  refine ⟨lines, fun line hline => ?_⟩
  induction line with
  | nil => exact hlines
  | cons c line ih =>
    rw [List.cons_append, split_plain_cons _ (hline c (by simp)),
      ih fun d hd => hline d (by simp [hd])]
    rfl

/-- A text without a line end is one line, unless it is empty. -/
theorem split_of_isOneLine (hline : IsOneLine line) (hne : line ≠ []) : split line = [line] := by
  induction line with
  | nil => exact absurd rfl hne
  | cons c line ih =>
    rw [split_plain_cons _ (hline c (by simp))]
    cases line with
    | nil => rfl
    | cons d line => rw [ih (fun e he => hline e (by simp [he])) (by simp)]; rfl

/-! ## Gaps at the edges of lines -/

def IsGap (gap : List Char) : Prop := ∀ c ∈ gap, Blank.isBlank c = true ∧ isBreak c = false

structure IsEdge (before after : List Char) : Prop where
  edge : (∀ c ∈ before.getLast?, isBreak c = true) ∨ ∀ c ∈ after.head?, isBreak c = true
  outside : ¬ (before.getLast? = some '\r' ∧ after.head? = some '\n')

/-- A text with gaps put in, one after another, at the edges of its lines. -/
inductive Indented (cs : List Char) : List Char → Prop where
  | same : Indented cs cs
  | gap {before gap after : List Char} : Indented cs (before ++ after) → IsEdge before after →
      IsGap gap → Indented cs (before ++ gap ++ after)

/-- What stands right of a place in its line, and the lines below. -/
theorem exists_below (after : List Char) : ∃ line below, after = line ++ below ∧
    IsOneLine line ∧ ∀ c ∈ below.head?, isBreak c = true := by
  refine ⟨after.takeWhile (!isBreak ·), after.dropWhile (!isBreak ·),
    List.takeWhile_append_dropWhile.symm, fun c hc => ?_, fun c hc => ?_⟩
  · simpa using List.mem_takeWhile_imp hc
  · simpa using Blank.not_head?_dropWhile c hc

/-- The lines above a place, and what stands left of it in its line. -/
theorem exists_above (before : List Char) : ∃ above line, before = above ++ line ∧
    IsOneLine line ∧ ∀ c ∈ above.getLast?, isBreak c = true := by
  obtain ⟨line, above, hreverse, hline, habove⟩ := exists_below before.reverse
  refine ⟨above.reverse, line.reverse, ?_, fun c hc => hline c (List.mem_reverse.1 hc), ?_⟩
  · rw [← List.reverse_append, ← hreverse, List.reverse_reverse]
  · simpa using habove

theorem IsOneLine.append (h : IsOneLine cs) (h' : IsOneLine ds) : IsOneLine (cs ++ ds) := by
  intro c hc
  exact (List.mem_append.1 hc).elim (h c) (h' c)

/-- A place at the edge of a line has nothing of the line on one of its sides. -/
theorem IsEdge.eq_nil_or (h : IsEdge (above ++ left) (right ++ below)) (hleft : IsOneLine left)
    (hright : IsOneLine right) : left = [] ∨ right = [] := by
  refine h.edge.imp (fun hbreak => ?_) fun hbreak => ?_
  · by_contra hne
    have hlast : (above ++ left).getLast? = some (left.getLast hne) := by
      rw [List.getLast?_append_of_ne_nil _ hne, List.getLast?_eq_some_getLast hne]
    exact absurd (hbreak _ hlast) (by simp [hleft _ (List.getLast_mem hne)])
  · by_contra hne
    obtain ⟨c, rest, rfl⟩ := List.exists_cons_of_ne_nil hne
    exact absurd (hbreak c rfl) (by simp [hright c (by simp)])

/-- A gap at the start or at the end of a line is stripped from it. -/
theorem IsGap.strip_append (hg : IsGap gap) (h : left = [] ∨ right = []) :
    Blank.strip (left ++ gap ++ right) = Blank.strip (left ++ right) := by
  have hblank : ∀ c ∈ gap, Blank.isBlank c = true := fun c hc => (hg c hc).1
  obtain rfl | rfl := h
  · exact Blank.trim_append_left hblank
  · rw [List.append_nil, List.append_nil]
    exact Blank.trim_append_right hblank

/-- The lines above a line end in front of it, whatever stands in it. -/
theorem split_above (habove : ∀ c ∈ above.getLast?, isBreak c = true) (hline : IsOneLine line)
    (hpair : line = [] → ¬ (above.getLast? = some '\r' ∧ below.head? = some '\n')) :
    split (above ++ (line ++ below)) = split above ++ split (line ++ below) := by
  refine split_append habove fun hends => ?_
  cases line with
  | nil => exact hpair rfl hends
  | cons c line =>
    obtain rfl : c = '\n' := by simpa using hends.2
    exact absurd (hline '\n' (by simp)) (by decide)

/-- A line exchanged for another that strips to the same leaves the stripped lines as they are. -/
theorem map_strip_split (hbelow : ∀ c ∈ below.head?, isBreak c = true) (hline : IsOneLine line)
    (hline' : IsOneLine line') (hne : below ≠ [] ∨ line ≠ [] ∧ line' ≠ [])
    (hstrip : Blank.strip line' = Blank.strip line) :
    (split (line' ++ below)).map Blank.strip = (split (line ++ below)).map Blank.strip := by
  by_cases hlast : below = []
  · obtain ⟨hsome, hsome'⟩ := hne.resolve_left (not_not.2 hlast)
    rw [hlast, List.append_nil, List.append_nil, split_of_isOneLine hline hsome,
      split_of_isOneLine hline' hsome', List.map_singleton, List.map_singleton, hstrip]
  · obtain ⟨lines, hlines⟩ := exists_split_append hlast hbelow
    rw [hlines _ hline, hlines _ hline', List.map_cons, List.map_cons, hstrip]

/-- A gap at the edge of a line is stripped from its line, or it is one more line at the end of the
text. -/
theorem split_gap (he : IsEdge before after) (hg : IsGap gap) :
    (split (before ++ gap ++ after)).map Blank.strip = (split (before ++ after)).map Blank.strip ∨
      split (before ++ gap ++ after) = split (before ++ after) ++ [gap] := by
  obtain ⟨above, left, rfl, hleft, habove⟩ := exists_above before
  obtain ⟨right, below, rfl, hright, hbelow⟩ := exists_below after
  have hgap : IsOneLine gap := fun c hc => (hg c hc).2
  have hside := he.eq_nil_or hleft hright
  have hpair : left = [] ∧ right = [] →
      ¬ (above.getLast? = some '\r' ∧ below.head? = some '\n') := by
    rintro ⟨rfl, rfl⟩
    simpa using he.outside
  have hold : split (above ++ left ++ (right ++ below)) =
      split above ++ split (left ++ right ++ below) := by
    rw [List.append_assoc, ← List.append_assoc left]
    exact split_above habove (hleft.append hright) fun h => hpair (List.append_eq_nil_iff.1 h)
  have hnew : split (above ++ left ++ gap ++ (right ++ below)) =
      split above ++ split (left ++ gap ++ right ++ below) := by
    rw [List.append_assoc above, List.append_assoc above, ← List.append_assoc (left ++ gap)]
    exact split_above habove ((hleft.append hgap).append hright) fun h => hpair (by simp_all)
  rw [hold, hnew]
  by_cases hend : below = [] ∧ left ++ right = []
  · obtain ⟨rfl, hnone⟩ := hend
    obtain ⟨rfl, rfl⟩ := List.append_eq_nil_iff.1 hnone
    by_cases hempty : gap = []
    · exact .inl (by simp [hempty])
    · right
      simp [split_of_isOneLine hgap hempty, split]
  · left
    rw [List.map_append, List.map_append, map_strip_split hbelow (hleft.append hright)
      ((hleft.append hgap).append hright) (by by_cases below = [] <;> simp_all)
      (hg.strip_append hside)]

/-! ## Styles of line ends -/

def withEnds (lineEnd cs : List Char) : List Char :=
  cs.flatMap fun c => if c = '\n' then lineEnd else [c]

theorem notMem_withEnds : '\n' ∉ withEnds ['\r'] cs := by
  intro h
  obtain ⟨c, -, hc⟩ := List.mem_flatMap.1 h
  split_ifs at hc with hn
  · simp at hc
  · exact hn (List.mem_singleton.1 hc).symm

/-- The style of the line ends does not show in the lines of a text without `\r`. -/
theorem split_withEnds {lineEnd : List Char} (hend : lineEnd = ['\r', '\n'] ∨ lineEnd = ['\r'])
    (hcr : '\r' ∉ cs) : split (withEnds lineEnd cs) = split cs := by
  induction cs with
  | nil => rfl
  | cons c cs ih =>
    have hrest := ih fun h => hcr (List.mem_cons_of_mem c h)
    have hcons : withEnds lineEnd (c :: cs) =
        (if c = '\n' then lineEnd else [c]) ++ withEnds lineEnd cs := List.flatMap_cons
    rw [hcons]
    by_cases hc : c = '\n'
    · subst hc
      rw [if_pos rfl, split_break_cons cs (by decide) (by simp), ← hrest]
      obtain rfl | rfl := hend
      · rfl
      · exact split_break_cons _ (by decide) fun h => notMem_withEnds (List.mem_of_head? h.2)
    · rw [if_neg hc, List.singleton_append]
      cases hb : isBreak c with
      | false => rw [split_plain_cons _ hb, split_plain_cons _ hb, hrest]
      | true =>
        have hr : c ≠ '\r' := fun h => hcr (h ▸ List.mem_cons_self)
        rw [split_break_cons _ hb (by simp [hr]), split_break_cons _ hb (by simp [hr]), hrest]

end Lines
end ContainerDocs

import ContainerDocs.Proofs.Text.CodePoint
import ContainerDocs.Proofs.Yaml.SingleTokens
import ContainerDocs.Yaml.Value

/-!
# The tokens of a document

What is known of a token from the text that it is cut out of: a tag has its exclamation mark, a text
without quotes does not end in a line feed, and what breaks the tokens off is a breach of the rules
of the format or one of the two numbers that cannot be read.

## Main definitions

* `Breaks` — the faults that can break the tokens of a text off.
* `Token.Fits` — a token as a text can give it.
* `Scan.Sound` — a state of the cutting whose tokens are so.

## Main statements

* `Plain.exists_read` — the characters of a text without quotes.
* `Scan.scans_step`, `Scan.fits_run` — a step, and all steps.
* `Token.fits_ofText` — the tokens of a text.
-/

namespace ContainerDocs.Yaml

open Character

/-! ## Texts without quotes -/

namespace Piece

variable {pieces : List Piece} {c : Char}

theorem breaks_suffix (pieces : List Piece) : (breaks pieces).2 <:+ pieces := by
  fun_induction breaks pieces with
  | case1 b rest ih => exact ih.trans (List.suffix_cons _ _)
  | case2 b rest more after hmore ih =>
    rw [hmore] at ih
    exact ih.trans (List.suffix_cons _ _)
  | case3 => exact List.suffix_rfl

theorem getLast?_breaks (h : pieces.getLast? = some (.char c)) :
    (breaks pieces).2.getLast? = some (.char c) := by
  fun_induction breaks pieces with
  | case1 b rest ih =>
    refine ih ?_
    cases rest with
    | nil => cases h
    | cons p rest => exact h
  | case2 b rest more after hmore ih =>
    rw [hmore] at ih
    refine ih ?_
    cases rest with
    | nil => cases h
    | cons p rest => exact h
  | case3 => exact h

theorem blanks_suffix (pieces : List Piece) : (blanks pieces).2 <:+ pieces := by
  fun_induction blanks pieces with
  | case1 b rest more after hmore ih =>
    rw [hmore] at ih
    exact ih.trans (List.suffix_cons _ _)
  | case2 => exact List.suffix_rfl

theorem getLast?_blanks (h : pieces.getLast? = some (.char c)) :
    (blanks pieces).2.getLast? = some (.char c) := by
  fun_induction blanks pieces with
  | case1 b rest more after hmore ih =>
    rw [hmore] at ih
    refine ih ?_
    cases rest with
    | nil => cases h
    | cons p rest => exact h
  | case2 => exact h

def IsWritten (p : Piece) : Prop := ∀ code, p = .char code → ∃ c : Char, code = c

theorem foldFrom_nil (n : Nat) : foldFrom n [] = [] := by cases n <;> rfl

theorem getLast?_tail {p : Piece} {rest : List Piece} (hp : p ≠ .char c)
    (h : (p :: rest).getLast? = some (.char c)) : rest.getLast? = some (.char c) := by
  cases rest with
  | nil => exact absurd (Option.some_inj.1 h) hp
  | cons q rest => exact h

/-- A text whose pieces are written and that ends in a character ends in that character. -/
theorem exists_foldFrom (n : Nat) (pieces : List Piece) (hn : pieces.length ≤ n)
    (hwritten : ∀ p ∈ pieces, p.IsWritten) (hlast : pieces.getLast? = some (.char c)) :
    ∃ w, foldFrom n pieces = Text.ofChars w ∧ w.getLast? = some c := by
  have hgap : ∀ (front : List Char) (t : Text), (∃ w, t = Text.ofChars w ∧ w.getLast? = some c) →
      ∃ w, Text.ofChars front ++ t = Text.ofChars w ∧ w.getLast? = some c := by
    rintro front t ⟨w, rfl, hw⟩
    exact ⟨front ++ w, (Text.ofChars_append front w).symm, by
      rw [List.getLast?_append, hw, Option.some_or]⟩
  have hrest : ∀ {n : Nat} {p : Piece} {rest after : List Piece}, (p :: rest).length ≤ n + 1 →
      (∀ q ∈ p :: rest, q.IsWritten) → after <:+ rest →
      after.length ≤ n ∧ ∀ q ∈ after, q.IsWritten := by
    intro n p rest after hn hwritten hsuffix
    exact ⟨hsuffix.length_le.trans (Nat.le_of_succ_le_succ hn),
      fun q hq => hwritten q (List.mem_cons_of_mem _ (hsuffix.mem hq))⟩
  fun_induction foldFrom n pieces with
  | case1 pieces =>
    rw [List.eq_nil_of_length_eq_zero (Nat.le_zero.1 hn)] at hlast
    cases hlast
  | case2 => cases hlast
  | case3 n code rest ih =>
    cases rest with
    | nil =>
      have hcode : code = c := by simpa using hlast
      exact ⟨[c], by rw [foldFrom_nil, hcode]; rfl, rfl⟩
    | cons p rest =>
      obtain ⟨d, rfl⟩ := hwritten _ List.mem_cons_self code rfl
      obtain ⟨hlen, hmem⟩ := hrest hn hwritten List.suffix_rfl
      exact hgap [d] _ (ih hlen hmem hlast)
  | case4 n b rest more after hafter ih =>
    have hsuffix : after <:+ rest := by simpa [hafter] using breaks_suffix rest
    have hend : after.getLast? = some (.char c) := by
      simpa [hafter] using getLast?_breaks (getLast?_tail (by simp) hlast)
    obtain ⟨hlen, hmem⟩ := hrest hn hwritten hsuffix
    exact hgap _ _ (ih hlen hmem hend)
  | case5 n rest more after hafter ih =>
    have hsuffix : after <:+ rest := by simpa [hafter] using breaks_suffix rest
    have hend : after.getLast? = some (.char c) := by
      simpa [hafter] using getLast?_breaks (getLast?_tail (by simp) hlast)
    obtain ⟨hlen, hmem⟩ := hrest hn hwritten hsuffix
    exact hgap _ _ (ih hlen hmem hend)
  | case6 n b rest more d after hafter ih =>
    have hsuffix : .lineBreak d :: after <:+ rest := by simpa [hafter] using blanks_suffix rest
    have hend : (Piece.lineBreak d :: after).getLast? = some (.char c) := by
      simpa [hafter] using getLast?_blanks (getLast?_tail (by simp) hlast)
    obtain ⟨hlen, hmem⟩ := hrest hn hwritten hsuffix
    exact ih hlen hmem hend
  | case7 n b rest more after hafter _ ih =>
    have hsuffix : after <:+ rest := by simpa [hafter] using blanks_suffix rest
    have hend : after.getLast? = some (.char c) := by
      simpa [hafter] using getLast?_blanks (getLast?_tail (by simp) hlast)
    obtain ⟨hlen, hmem⟩ := hrest hn hwritten hsuffix
    exact hgap _ _ (ih hlen hmem hend)

/-- The text of written pieces that end in a character ends in that character. -/
theorem exists_fold (hwritten : ∀ p ∈ pieces, p.IsWritten)
    (hlast : pieces.getLast? = some (.char c)) :
    ∃ w, fold pieces = Text.ofChars w ∧ w.getLast? = some c :=
  exists_foldFrom _ pieces le_rfl hwritten hlast

end Piece

namespace Plain

theorem ne_lineFeed_of_resumes {margin : Nat} {flow : Bool} {place : Place} {c : Char}
    {rest : List Char} (h : resumes margin flow place (c :: rest) = true) : c ≠ '\n' := by
  have hends : endsHere flow (c :: rest) = false := by
    cases place with
    | word => simpa [resumes] using h
    | gap => simpa [resumes] using (by simpa [resumes] using h : _ ∧ _).2
    | line column => simpa [resumes] using (by simpa [resumes] using h : _ ∧ _).2
  rintro rfl
  exact absurd hends (by simp [endsHere, isSeparator, isBreak])

/-- Pieces that are written, of which the last one is a character other than a line feed. -/
def Closed (pieces : List Piece) : Prop :=
  (∀ p ∈ pieces, p.IsWritten) ∧
    ∀ p, pieces.getLast? = some p → ∃ c : Char, p = .char c ∧ c ≠ '\n'

/-- The pieces of a text without quotes end with a word. -/
theorem closed_readFrom {margin : Nat} {flow : Bool} (place : Place) (gap : List Piece)
    (stop cs : List Char) (hgap : ∀ p ∈ gap, p.IsWritten) :
    Closed (readFrom margin flow place gap stop cs).1 := by
  have hnil : Closed [] := ⟨by simp, by simp⟩
  fun_induction readFrom margin flow place gap stop cs with
  | case1 => exact hnil
  | case2 place gap stop c rest hresumes pieces after hpieces ih =>
    obtain ⟨hwritten, hlast⟩ := ih (by simp)
    rw [hpieces] at hwritten hlast
    have hc : (Piece.char c).IsWritten := by
      rintro code ⟨⟩
      exact ⟨c, rfl⟩
    constructor
    · intro p hp
      rcases List.mem_append.1 hp with hp | hp
      · exact hgap p (List.mem_reverse.1 hp)
      · exact (List.mem_cons.1 hp).elim (fun h => h ▸ hc) (hwritten p)
    · intro p hp
      rw [List.getLast?_append, List.getLast?_cons, Option.some_or, Option.some_inj] at hp
      subst hp
      cases hend : pieces.getLast? with
      | none => exact ⟨c, rfl, ne_lineFeed_of_resumes hresumes⟩
      | some q => exact hlast q hend
  | case3 => exact hnil
  | case4 place gap stop c rest _ _ _ ih =>
    refine ih fun p hp => (List.mem_cons.1 hp).elim (fun h => ?_) (hgap p)
    rintro code rfl
    cases h
  | case5 written stop rest place _ _ _ ih =>
    refine ih fun p hp => (List.mem_cons.1 hp).elim (fun h => ?_) (hgap p)
    rintro code rfl
    cases h
  | case6 => exact hnil

/-- A text without quotes does not end in a line feed. -/
theorem exists_read (margin : Nat) (flow : Bool) (cs : List Char) :
    ∃ w, (read margin flow cs).1 = Text.ofChars w ∧ w.getLast? ≠ some '\n' := by
  obtain ⟨hwritten, hlast⟩ := closed_readFrom .word [] cs cs (by simp)
  change ∃ w, Piece.fold (readFrom margin flow .word [] cs cs).1 = Text.ofChars w ∧ _
  cases hend : (readFrom margin flow .word [] cs cs).1.getLast? with
  | none =>
    rw [List.getLast?_eq_none_iff.1 hend]
    exact ⟨[], rfl, by simp⟩
  | some p =>
    obtain ⟨c, rfl, hc⟩ := hlast p hend
    obtain ⟨w, hw, hwc⟩ := Piece.exists_fold hwritten hend
    exact ⟨w, hw, by simpa [hwc] using hc⟩

end Plain

/-! ## States of the cutting -/

def Breaks (text : List Char) (f : Fault) : Prop :=
  f.IsProblem ∨ FarEscape text f ∨ LongVersion text f

def Token.Fits (text : List Char) : Token → Prop
  | .tag _ => '!' ∈ text
  | .scalar true t => ∃ w, t = Text.ofChars w ∧ w.getLast? ≠ some '\n'
  | .broken f => Breaks text f
  | _ => True

/-- A state at a place of a text, with tokens that the text can give. -/
structure Scan.Sound (text : List Char) (s : Scan) : Prop where
  rest : s.cursor.rest <:+ text
  fits : ∀ t ∈ s.tokens, t.Fits text

theorem Cursor.next_rest (c : Cursor) : c.next.rest = c.rest.tail := by
  rw [next]
  split
  · simp [*]
  · split_ifs <;> simp [*]

theorem Cursor.skip_rest (c : Cursor) (n : Nat) : (c.skip n).rest = c.rest.drop n := by
  induction n generalizing c with
  | zero => rfl
  | succ n ih => rw [skip, ih, next_rest, List.drop_tail]

theorem Cursor.moveTo_suffix (c : Cursor) (rest : List Char) : (c.moveTo rest).rest <:+ c.rest := by
  rw [moveTo, skip_rest]
  exact List.drop_suffix _ _

namespace Scan

variable {text rest : List Char} {s s' : Scan} {t : Token}

abbrev Scans (text : List Char) (x : Except Fault Scan) : Prop :=
  Gives (Breaks text) (Sound text) x

theorem scans_refuse (p : Problem) : Scans text (Property.refuse p) := .inl ⟨p, rfl⟩

namespace Sound

/-- What a state has besides its cursor and tokens does not matter. -/
theorem of_eq (h : s.Sound text) (hcursor : s'.cursor = s.cursor) (htokens : s'.tokens = s.tokens) :
    s'.Sound text := by
  refine ⟨?_, ?_⟩
  · rw [hcursor]
    exact h.rest
  · rw [htokens]
    exact h.fits

theorem push (h : s.Sound text) (ht : t.Fits text) : (s.push t).Sound text := by
  refine ⟨h.rest, fun u hu => ?_⟩
  rcases Array.mem_push.1 hu with hu | rfl
  · exact h.fits u hu
  · exact ht

theorem moveTo (h : s.Sound text) (rest : List Char) : (s.moveTo rest).Sound text :=
  ⟨(Cursor.moveTo_suffix _ _).trans h.rest, h.fits⟩

theorem take (h : s.Sound text) (count : Nat) (ht : t.Fits text) :
    (s.take count t).Sound text := by
  refine ⟨?_, (h.push ht).fits⟩
  change (s.cursor.skip count).rest <:+ text
  rw [Cursor.skip_rest]
  exact (List.drop_suffix _ _).trans h.rest

theorem insert (h : s.Sound text) (place : Nat) (ht : t.Fits text) :
    ∀ u ∈ s.tokens.insertIdxIfInBounds place t, u.Fits text := by
  intro u hu
  rw [Array.insertIdxIfInBounds] at hu
  split_ifs at hu
  · rcases Array.mem_insertIdx.1 hu with rfl | hu
    · exact ht
    · exact h.fits u hu
  · exact h.fits u hu

theorem openAt (h : s.Sound text) (column place : Nat) (ht : t.Fits text) :
    (s.openAt column place t).Sound text := by
  rw [Scan.openAt]
  split_ifs
  · exact ⟨h.rest, h.insert place ht⟩
  · exact h

theorem append_blockEnds (h : s.Sound text) (n : Nat) :
    ∀ t ∈ s.tokens ++ Array.replicate n Token.blockEnd, t.Fits text := by
  intro t ht
  rcases Array.mem_append.1 ht with ht | ht
  · exact h.fits t ht
  · rw [(Array.mem_replicate.1 ht).2]
    trivial

theorem closeTo (h : s.Sound text) (column : Nat) : (s.closeTo column).Sound text := by
  rw [Scan.closeTo]
  split_ifs
  · exact h
  · exact ⟨h.rest, h.append_blockEnds _⟩

theorem closeAll (h : s.Sound text) : s.closeAll.Sound text := by
  rw [Scan.closeAll]
  split_ifs
  · exact h
  · exact ⟨h.rest, h.append_blockEnds _⟩

theorem skipFiller (h : s.Sound text) : s.skipFiller.Sound text := (h.moveTo _).of_eq rfl rfl

theorem dropLate (h : s.Sound text) : Scans text s.dropLate := by
  rw [Scan.dropLate]
  dsimp only
  split_ifs
  · exact scans_refuse _
  · exact h.of_eq rfl rfl

theorem dropKey (h : s.Sound text) : Scans text s.dropKey := by
  rw [Scan.dropKey]
  split
  · split_ifs
    · exact scans_refuse _
    · exact h.of_eq rfl rfl
  · exact h

theorem saveKey (h : s.Sound text) : Scans text s.saveKey := by
  rw [Scan.saveKey]
  split_ifs
  · exact h.dropKey.bind fun _ hs => hs.of_eq rfl rfl
  · exact h

theorem documentMark (h : s.Sound text) (ht : t.Fits text) : Scans text (s.documentMark t) :=
  h.closeAll.dropKey.bind fun _ hs => (hs.take 3 ht).of_eq rfl rfl

theorem directive (h : s.Sound text) (hrest : '%' :: rest <:+: text) :
    Scans text (s.directive rest) := by
  refine h.closeAll.dropKey.bind fun s hs => ?_
  have hread : Gives (Breaks text) _ (Property.directive rest) :=
    (Property.gives_directive rest).mono
      (fun f => Or.imp_right fun hlong => .inr (hlong.mono hrest)) fun _ => id
  refine hread.bind fun r _ => ?_
  exact ((hs.push (t := .directive r.1) trivial).moveTo r.2).of_eq rfl rfl

theorem finish (h : s.Sound text) : Scans text s.finish :=
  h.closeAll.dropKey.bind fun _ hs => hs.push trivial

theorem openFlow (h : s.Sound text) (ht : t.Fits text) : Scans text (s.openFlow t) :=
  h.saveKey.bind fun _ hs => (hs.take 1 ht).of_eq rfl rfl

theorem closeFlow (h : s.Sound text) (c : Char) (ht : t.Fits text) :
    Scans text (s.closeFlow c t) := by
  rw [Scan.closeFlow]
  split_ifs
  · exact h.dropKey.bind fun _ hs => (hs.take 1 ht).of_eq rfl rfl
  · exact scans_refuse _

theorem comma (h : s.Sound text) : Scans text s.comma :=
  h.dropKey.bind fun _ hs => (hs.take 1 (t := .comma) trivial).of_eq rfl rfl

theorem entry (h : s.Sound text) : Scans text s.entry := by
  have hentry : ∀ {s : Scan}, s.Sound text →
      Scans text (do let s ← s.dropKey; return { s.take 1 .entry with mayStartKey := true }) :=
    fun h => h.dropKey.bind fun _ hs => (hs.take 1 (t := .entry) trivial).of_eq rfl rfl
  rw [Scan.entry]
  split_ifs
  · exact scans_refuse _
  · exact hentry h
  · exact hentry (h.openAt _ _ trivial)

theorem key (h : s.Sound text) : Scans text s.key := by
  have hkey : ∀ {s : Scan}, s.Sound text →
      Scans text (do let s ← s.dropKey; return { s.take 1 .key with mayStartKey := !s.inFlow }) :=
    fun h => h.dropKey.bind fun _ hs => (hs.take 1 (t := .key) trivial).of_eq rfl rfl
  rw [Scan.key]
  split_ifs
  · exact scans_refuse _
  · exact hkey h
  · exact hkey (h.openAt _ _ trivial)

theorem value (h : s.Sound text) : Scans text s.value := by
  have hvalue : ∀ {s : Scan}, s.Sound text → (s.take 1 .value).Sound text :=
    fun h => h.take 1 trivial
  rw [Scan.value]
  split
  · rename_i k outer _
    have hkey : Sound text { s with
        pending := none :: outer
        tokens := s.tokens.insertIdxIfInBounds k.tokens .key
        mayStartKey := false } := ⟨h.rest, h.insert _ trivial⟩
    dsimp only
    split_ifs
    · exact hvalue hkey
    · exact hvalue (hkey.openAt _ _ trivial)
  · dsimp only
    split_ifs
    · exact scans_refuse _
    · exact (hvalue h).of_eq rfl rfl
    · exact (hvalue (h.openAt _ _ (t := .mappingStart) trivial)).of_eq rfl rfl

theorem node (h : s.Sound text) {read : Except Fault (Token × List Char)}
    (hread : Gives (Breaks text) (fun r => r.1.Fits text) read) : Scans text (s.node read) :=
  h.saveKey.bind fun _ hs => hread.bind fun r hr =>
    ((hs.push hr).moveTo r.2).of_eq rfl rfl

theorem blockText (h : s.Sound text) (folded : Bool) (rest : List Char) :
    Scans text (s.blockText folded rest) := by
  refine h.dropKey.bind fun s hs => ?_
  refine ((BlockText.refuses_read _ _ _).of_refuses fun _ => .inl).bind fun r _ => ?_
  exact ((hs.push (t := .scalar false (Text.ofChars r.1)) trivial).moveTo r.2).of_eq rfl rfl

end Sound

/-! ## Steps and runs -/

theorem gives_reading {α : Type} {token : α → Token} {read : Except Fault (α × List Char)}
    (h : Gives (Breaks text) (fun _ => True) read) (ht : ∀ a, (token a).Fits text) :
    Gives (Breaks text) (fun r => r.1.Fits text) (reading token read) :=
  h.map fun r _ => ht r.1

/-- The reader that a character selects fails as the tokens of the text can. -/
theorem scans_dispatch (h : s.Sound text) {c : Char} (hrest : s.cursor.rest = c :: rest) :
    Scans text (s.dispatch c rest) := by
  have hall : c :: rest <:+: text := by
    rw [← hrest]
    exact h.rest.isInfix
  have htail : rest <:+: text := (List.suffix_cons c rest).isInfix.trans hall
  have hmark : c = '!' → '!' ∈ text := fun h' => h' ▸ hall.mem List.mem_cons_self
  have hproblem : ∀ f : Fault, f.IsProblem → Breaks text f := fun _ => .inl
  have hname : Gives (Breaks text) (fun _ => True) (Property.name rest) :=
    (Property.refuses_name rest).of_refuses hproblem
  have htag : Gives (Breaks text) (fun _ => True) (Property.tag rest) :=
    (Property.refuses_tag rest).of_refuses hproblem
  have hsingle : Gives (Breaks text) (fun _ => True) (QuotedText.single rest) :=
    (QuotedText.refuses_single rest).of_refuses hproblem
  have hdouble : Gives (Breaks text) (fun _ => True) (QuotedText.double rest) :=
    (QuotedText.gives_double rest).mono (fun _ => Or.imp_right fun hfar => .inl (hfar.mono htail))
      fun _ => id
  rw [dispatch]
  refine Gives.ite (fun h' => h.directive (h'.1 ▸ hall)) fun _ => ?_
  refine Gives.ite (fun _ => h.documentMark trivial) fun _ => ?_
  refine Gives.ite (fun _ => h.documentMark trivial) fun _ => ?_
  refine Gives.ite (fun _ => h.openFlow trivial) fun _ => ?_
  refine Gives.ite (fun _ => h.openFlow trivial) fun _ => ?_
  refine Gives.ite (fun _ => h.closeFlow c trivial) fun _ => ?_
  refine Gives.ite (fun _ => h.closeFlow c trivial) fun _ => ?_
  refine Gives.ite (fun _ => h.comma) fun _ => ?_
  refine Gives.ite (fun _ => h.entry) fun _ => ?_
  refine Gives.ite (fun _ => h.key) fun _ => ?_
  refine Gives.ite (fun _ => h.value) fun _ => ?_
  refine Gives.ite (fun _ => h.node (gives_reading hname fun _ => trivial)) fun _ => ?_
  refine Gives.ite (fun _ => h.node (gives_reading hname fun _ => trivial)) fun _ => ?_
  refine Gives.ite (fun h' => h.node (gives_reading htag fun _ => hmark h')) fun _ => ?_
  refine Gives.ite (fun _ => h.blockText false rest) fun _ => ?_
  refine Gives.ite (fun _ => h.blockText true rest) fun _ => ?_
  refine Gives.ite (fun _ => h.node (gives_reading hsingle fun _ => trivial)) fun _ => ?_
  refine Gives.ite (fun _ => h.node (gives_reading hdouble fun _ => trivial)) fun _ => ?_
  exact Gives.ite (fun _ => h.node (Plain.exists_read s.margin s.inFlow (c :: rest)))
    fun _ => scans_refuse _

/-- A step keeps the tokens of a text apart from its faults. -/
theorem scans_step (h : s.Sound text) : Scans text s.step := by
  refine h.skipFiller.dropLate.bind fun s hs => ?_
  have hclosed := hs.closeTo s.cursor.column
  dsimp only
  split
  · exact hclosed.finish
  · rename_i hrest
    exact scans_dispatch hclosed hrest

theorem fits_breakOff (h : s.Sound text) {f : Fault} (hf : Breaks text f) :
    ∀ t ∈ s.breakOff f, t.Fits text := by
  have hlate : (s.dropLate.toOption.getD s).Sound text := by
    have hdrop := h.dropLate
    cases hs : s.dropLate with
    | error => exact h
    | ok s' => exact hdrop.ok_of_eq hs
  intro t ht
  rw [breakOff] at ht
  rcases List.mem_append.1 ht with ht | ht
  · exact hlate.fits t (Array.mem_toList_iff.1 (List.mem_of_mem_take ht))
  · rw [List.mem_singleton.1 ht]
    exact hf

/-- All tokens of a run from a sound state are such as the text can give. -/
theorem fits_run (fuel : Nat) (h : s.Sound text) : ∀ t ∈ run fuel s, t.Fits text := by
  induction fuel generalizing s with
  | zero => exact fun t ht => h.fits t (Array.mem_toList_iff.1 ht)
  | succ fuel ih =>
    intro t ht
    rw [run] at ht
    have hstep := scans_step h
    cases hs : s.step with
    | error f =>
      rw [hs] at ht
      exact fits_breakOff h (hstep.error_of_eq hs) t ht
    | ok next =>
      rw [hs] at ht
      have hnext := hstep.ok_of_eq hs
      dsimp only at ht
      split_ifs at ht
      · exact hnext.fits t (Array.mem_toList_iff.1 ht)
      · exact ih hnext t ht

end Scan

/-- Every token of a text is such as the text can give. -/
theorem Token.fits_ofText (text : List Char) : ∀ t ∈ ofText text, t.Fits text :=
  Scan.fits_run _ ⟨List.suffix_rfl, by simp [Scan.start]⟩


/-! ## Line breaks made one -/

/-- A text without line feeds at the front of a text with unified line breaks is at its front. -/
theorem prefix_of_unify {w cs : List Char} (h : w <+: unify cs) (hw : '\n' ∉ w) : w <+: cs := by
  induction cs using unify.induct generalizing w with
  | case1 rest ih =>
    cases w with
    | nil => exact List.nil_prefix
    | cons c w =>
      rw [unify, List.cons_prefix_cons] at h
      exact absurd h.1 fun hc => hw (hc ▸ List.mem_cons_self)
  | case2 c rest hpair ih =>
    cases w with
    | nil => exact List.nil_prefix
    | cons d w =>
      rw [unify, List.cons_prefix_cons] at h
      split_ifs at h with hc
      · exact absurd h.1 fun hd => hw (hd ▸ List.mem_cons_self)
      · rw [h.1]
        exact (List.prefix_cons_inj c).2 (ih h.2 fun hmem => hw (List.mem_cons_of_mem _ hmem))
      · exact hpair
  | case3 => exact h

/-- What stands in a text with unified line breaks and has no line feed stands in the text. -/
theorem infix_of_unify {w cs : List Char} (h : w <:+: unify cs) (hw : '\n' ∉ w) : w <:+: cs := by
  induction cs using unify.induct with
  | case1 rest ih =>
    rw [unify, List.infix_cons_iff] at h
    rcases h with h | h
    · have hfront : w <+: '\r' :: '\n' :: rest := prefix_of_unify (by rwa [unify]) hw
      exact hfront.isInfix
    · exact (ih h).trans (List.suffix_append ['\r', '\n'] rest).isInfix
  | case2 c rest hpair ih =>
    rw [unify, List.infix_cons_iff] at h
    · rcases h with h | h
      · have hfront : w <+: c :: rest := prefix_of_unify (by rwa [unify]; exact hpair) hw
        exact hfront.isInfix
      · exact (ih h).trans (List.suffix_cons c rest).isInfix
    · exact hpair
  | case3 => exact h

theorem withoutMark_suffix (cs : List Char) : withoutMark cs <:+ cs := by
  rw [withoutMark]
  split_ifs
  · exact List.tail_suffix cs
  · exact List.suffix_rfl

/-- What stands in a text as it is cut into tokens and has no line feed stands in the text. -/
theorem infix_of_unify_withoutMark {w cs : List Char} (h : w <:+: unify (withoutMark cs))
    (hw : '\n' ∉ w) : w <:+: cs :=
  (infix_of_unify h hw).trans (withoutMark_suffix cs).isInfix

theorem FarEscape.of_unify {cs : List Char} {f : Fault}
    (h : FarEscape (unify (withoutMark cs)) f) : FarEscape cs f := by
  obtain ⟨ds, n, hds, hlen, hn, rest⟩ := h
  refine ⟨ds, n, infix_of_unify_withoutMark hds ?_, hlen, hn, rest⟩
  intro hmem
  simp only [List.mem_cons] at hmem
  rcases hmem with h | h | h
  · exact absurd h (by decide)
  · exact absurd h (by decide)
  · exact absurd (QuotedText.isSome_hexDigit? hn _ h) (by decide)

theorem LongVersion.of_unify {cs : List Char} {f : Fault}
    (h : LongVersion (unify (withoutMark cs)) f) : LongVersion cs f := by
  obtain ⟨numbers, hnumbers, front, ds, hprefix, hfront, hds, hlong, hf⟩ := h
  have hwritten : "%YAML".toList ++ (front ++ ds) <:+: unify (withoutMark cs) :=
    ((List.prefix_append_right_inj _).2 hprefix).isInfix.trans hnumbers
  have hcs : "%YAML".toList ++ (front ++ ds) <:+: cs := by
    refine infix_of_unify_withoutMark hwritten fun hmem => ?_
    rcases List.mem_append.1 hmem with h | h
    · exact absurd h (by decide)
    · rcases List.mem_append.1 h with h | h
      · exact absurd (hfront _ h) (by decide)
      · exact absurd (hds _ h) (by decide)
  exact ⟨front ++ ds, hcs, front, ds, List.prefix_rfl, hfront, hds, hlong, hf⟩

theorem Breaks.of_unify {cs : List Char} {f : Fault} (h : Breaks (unify (withoutMark cs)) f) :
    Breaks cs f :=
  h.imp_right (Or.imp FarEscape.of_unify LongVersion.of_unify)

theorem Token.Fits.of_unify {cs : List Char} {t : Token} (h : t.Fits (unify (withoutMark cs))) :
    t.Fits cs := by
  cases t with
  | tag t =>
    obtain ⟨before, after, hmem⟩ := List.append_of_mem (a := '!') h
    have hmark : ['!'] <:+: unify (withoutMark cs) :=
      ⟨before, after, by rw [hmem, List.append_assoc, List.singleton_append]⟩
    exact (infix_of_unify_withoutMark hmark (by decide)).mem List.mem_cons_self
  | scalar plain w =>
    cases plain with
    | true => exact h
    | false => trivial
  | broken f => exact Breaks.of_unify h
  | _ => trivial

/-- Every token of a document is such as its text can give. -/
theorem Token.fits_of_mem {cs : List Char} {t : Token}
    (h : t ∈ ofText (unify (withoutMark cs))) : t.Fits cs :=
  (fits_ofText _ t h).of_unify

end ContainerDocs.Yaml

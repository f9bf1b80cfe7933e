import ContainerDocs.Proofs.Text.CodePoint
import ContainerDocs.Proofs.Yaml.Floats

/-!
# Which scalars have a value

A text without quotes shows what it stands for. If it looks like a truth value or like nothing, it
is one; an integer, a number with a point or a moment has no value in the cases that are listed
here.

## Main definitions

* `Scalar.IsOrdinaryTag` — the tags whose scalars never break the rules of the format.
* `Scalar.plainFault?` — the fault of a text without quotes.

## Main statements

* `Scalar.isOfValue_of_value` — the faults of ordinary scalars.
* `Scalar.value_plain_iff` — the texts without quotes that have no value.
-/

namespace ContainerDocs.Yaml

def Fault.IsOfValue (f : Fault) : Prop := (∃ v, f = .value v) ∨ f = .outOfRange

theorem Fault.IsOfValue.not_isProblem {f : Fault} (h : f.IsOfValue) : ¬f.IsProblem := by
  rintro ⟨p, rfl⟩
  rcases h with ⟨v, hv⟩ | hrange
  · cases hv
  · cases hrange

/-- A reading that fails only because of a value. -/
abbrev Spares {α : Type} (x : Except Fault α) : Prop := Gives Fault.IsOfValue (fun _ => True) x

theorem spares_value {α : Type} (f : ValueFault) : Spares (.error (.value f) : Except Fault α) :=
  .inl ⟨f, rfl⟩

theorem Gives.mapM {α β : Type} {P : Fault → Prop} {g : α → Except Fault β} {as : List α}
    (h : ∀ a ∈ as, Gives P (fun _ => True) (g a)) : Gives P (fun _ => True) (as.mapM g) := by
  induction as with
  | nil => trivial
  | cons a as ih =>
    rw [List.forall_mem_cons] at h
    rw [List.mapM_cons]
    exact h.1.bind fun _ _ => (ih h.2).bind fun _ _ => trivial

namespace Scalar

open Character

theorem spares_integer (base : Nat) (cs : List Char) : Spares (integer base cs) := by
  rw [integer]
  refine Gives.ite (fun _ => spares_value _) fun _ => ?_
  split
  · trivial
  · exact spares_value _

theorem spares_int (cs : List Char) : Spares (int cs) := by
  have hsign : ∀ {x : Except Fault Int}, Spares x → Spares (do
      let n ← x
      return if (withoutLines cs).head? = some '-' then -n else n) :=
    fun h => h.bind fun _ _ => trivial
  rw [int]
  dsimp only
  split
  · exact hsign (spares_value _)
  · exact hsign trivial
  · exact hsign (spares_integer _ _)
  · exact hsign (spares_integer _ _)
  · exact hsign (spares_integer _ _)
  · refine Gives.ite (fun _ => ?_) fun _ => hsign (spares_integer _ _)
    exact (Gives.mapM fun _ _ => spares_integer _ _).bind fun _ _ => hsign trivial

theorem spares_sexagesimal (weight : Nat) (sum : Binary64) (ds : List Binary64) :
    Spares (sexagesimal weight sum ds) := by
  induction ds generalizing weight sum with
  | nil => trivial
  | cons d ds ih => exact Gives.ite (fun _ => ih _ _) fun _ => .inr rfl

theorem spares_decimal (cs : List Char) : Spares (decimal cs) := by
  rw [decimal]
  split
  · trivial
  · exact spares_value _

/-- The conclusion is not in the form of the other lemmas, since that would be evaluated. -/
theorem isOfValue_of_float {cs : List Char} {f : Fault} (h : float cs = .error f) :
    f.IsOfValue := by
  refine Gives.error_of_eq (P := Fault.IsOfValue) (Q := fun _ => True) ?_ h
  rw [float]
  generalize lowered (withoutLines cs) = text
  have hsign : ∀ {x : Except Fault Binary64}, Spares x →
      Spares (do let x ← x; return if text.head? = some '-' then x.neg else x) :=
    fun h => h.bind fun _ _ => trivial
  have hok : Spares (.ok (Binary64.infinity false)) := trivial
  refine Gives.ite (fun _ => spares_value _) fun _ => ?_
  refine Gives.ite (fun _ => hsign hok) fun _ => ?_
  refine Gives.ite (fun _ => trivial) fun _ => ?_
  refine Gives.ite (fun _ => ?_) fun _ => hsign (spares_decimal _)
  exact (Gives.mapM fun _ _ => spares_decimal _).bind fun _ _ => hsign (spares_sexagesimal _ _ _)

theorem isOfValue_of_truth {cs : List Char} {f : Fault} (h : truth cs = .error f) :
    f.IsOfValue := by
  rw [truth] at h
  split at h
  · cases h
  · cases h
    exact .inl ⟨_, rfl⟩

theorem spares_moment (cs : List Char) : Spares (moment cs) := by
  rw [moment]
  split
  · exact spares_value _
  · dsimp only
    split_ifs
    · trivial
    · exact spares_value _

/-- A tag whose scalars never break the rules of the format. -/
def IsOrdinaryTag (tag : Tag) : Prop :=
  tag ∈ [Tag.null, .bool, .int, .float, .timestamp, .text]

theorem eq_error_of_map {α β : Type} {x : Except Fault α} {g : α → β} {f : Fault}
    (h : x.map g = .error f) : x = .error f := by
  cases x with
  | ok a => cases h
  | error f' => exact congrArg _ (Except.error.inj h)

theorem isOfValue_of_value {tag : Tag} (h : IsOrdinaryTag tag) {t : Text} {f : Fault}
    (hf : value tag t = .error f) : f.IsOfValue := by
  simp only [IsOrdinaryTag, List.mem_cons, List.not_mem_nil, or_false] at h
  rcases h with rfl | rfl | rfl | rfl | rfl | rfl <;> rw [value] at hf
  · cases hf
  · exact isOfValue_of_truth (eq_error_of_map hf)
  · exact (spares_int _).error_of_eq (eq_error_of_map hf)
  · exact isOfValue_of_float (eq_error_of_map hf)
  · exact (spares_moment _).error_of_eq (eq_error_of_map hf)
  · cases hf

theorem refuses_binary (t : Text) : Refuses (binary t) := by
  rw [binary]
  dsimp only
  split
  · trivial
  · exact ⟨_, rfl⟩

/-- A scalar breaks the rules of the format, or it has a fault of a value. -/
theorem isProblem_or_isOfValue {tag : Tag} {t : Text} {f : Fault} (hf : value tag t = .error f) :
    f.IsProblem ∨ f.IsOfValue := by
  cases tag with
  | null | bool | int | float | timestamp | text =>
    exact .inr (isOfValue_of_value (by simp [IsOrdinaryTag]) hf)
  | binary => exact .inl ((refuses_binary t).error_of_eq (eq_error_of_map hf))
  | _ => exact .inl (by rw [value] at hf; cases hf; exact ⟨_, rfl⟩)

/-! ## Texts without quotes -/

theorem toChar?_ofChar (c : Char) : (CodePoint.ofChar c).toChar? = some c := by
  have hvalid : (CodePoint.ofChar c).val.isValidChar := c.valid
  rw [CodePoint.toChar?, dif_pos hvalid]
  rfl

theorem toString?_ofChars (w : List Char) :
    (Text.ofChars w).toString? = some (String.ofList w) := by
  have hmapM : (Text.ofChars w).mapM CodePoint.toChar? = some w := by
    induction w with
    | nil => rfl
    | cons c w ih => rw [Text.ofChars_cons, List.mapM_cons, toChar?_ofChar, ih]; rfl
  rw [Text.toString?, hmapM]
  rfl

theorem toStringLossy_ofChars (w : List Char) :
    (Text.ofChars w).toStringLossy = String.ofList w := by
  have hmap : (Text.ofChars w).map CodePoint.toCharLossy = w := by
    rw [Text.ofChars, List.map_map]
    refine (List.map_congr_left fun c _ => ?_).trans (List.map_id w)
    rw [Function.comp, CodePoint.toCharLossy, toChar?_ofChar]
    rfl
  rw [Text.toStringLossy, hmap]

theorem withoutFinalBreak_eq_self {w : List Char} (h : w.getLast? ≠ some '\n') :
    withoutFinalBreak w = w := if_neg fun hw => h hw.2

/-- A text without quotes that is a word for a truth value has it. -/
theorem fault?_truth {w : List Char} (h : isTruth w = true) : fault? (truth w) = none := by
  have hall : (truthWords.all fun word => (spellings word.1).all fun w => fault? (truth w) = none) =
      true := by
    decide
  obtain ⟨word, hword, hw⟩ := List.any_eq_true.1 h
  simpa using List.all_eq_true.1 (List.all_eq_true.1 hall word hword) w (List.contains_iff_mem.1 hw)

theorem fault?_map {α β : Type} (x : Except Fault α) (g : α → β) :
    fault? (x.map g) = fault? x := by cases x <;> rfl

def momentFault? (w : List Char) : Option Fault :=
  (momentParts? w).bind fun p =>
    if p.toTimestamp.IsValid then none
    else some (.value (.noMoment (Timestamp.firstFault p.toTimestamp)))

theorem fault?_moment {w : List Char} (h : isMoment w = true) :
    fault? (moment w) = momentFault? w := by
  rw [isMoment] at h
  rw [moment, momentFault?]
  cases hparts : momentParts? w with
  | none =>
    rw [hparts] at h
    cases h
  | some p =>
    dsimp only [Option.bind_some]
    split_ifs <;> rfl

def faultUnder? (tag : Tag) (w : List Char) : Option Fault :=
  match tag with
  | .int => (intFault? (unsigned w)).map .value
  | .float => if 174 ≤ w.countP (· = ':') then some .outOfRange else none
  | .timestamp => momentFault? w
  | _ => none

def plainFault? (w : List Char) : Option Fault := faultUnder? (tagOfPlain (Text.ofChars w)) w

theorem tagOfPlain_ofChars {w : List Char} (h : w.getLast? ≠ some '\n') :
    tagOfPlain (Text.ofChars w) =
      if isTruth w then .bool
      else if isFloat w then .float
      else if isInt w then .int
      else if w = ['<', '<'] then .merge
      else if isNull w then .null
      else if isMoment w then .timestamp
      else if w = ['='] then .default
      else .text := by
  rw [tagOfPlain, toString?_ofChars]
  dsimp only
  rw [String.toList_ofList, withoutFinalBreak_eq_self h]

/-- The fault of a text that stands for itself or for nothing, or that is a special key, is at most
a breach of the rules of the format. -/
theorem isProblem_of_value {tag : Tag} (h : tag ∈ [Tag.merge, .null, .default, .text]) {t : Text}
    {f : Fault} (hf : value tag t = .error f) : f.IsProblem := by
  simp only [List.mem_cons, List.not_mem_nil, or_false] at h
  rcases h with rfl | rfl | rfl | rfl <;> rw [value] at hf <;> cases hf
  · exact ⟨_, rfl⟩
  · exact ⟨_, rfl⟩

/-- The texts without quotes that do not fit what they stand for. -/
theorem value_plain_iff {w : List Char} (h : w.getLast? ≠ some '\n') {f : Fault} :
    value (tagOfPlain (Text.ofChars w)) (Text.ofChars w) = .error f ∧ ¬f.IsProblem ↔
      plainFault? w = some f := by
  have hcs : (Text.ofChars w).toStringLossy.toList = w := by
    rw [toStringLossy_ofChars, String.toList_ofList]
  have hordinary : ∀ {tag : Tag}, IsOrdinaryTag tag →
      fault? (value tag (Text.ofChars w)) = faultUnder? tag w →
        (value tag (Text.ofChars w) = .error f ∧ ¬f.IsProblem ↔ faultUnder? tag w = some f) := by
    intro tag htag hfault
    rw [← hfault, fault?_eq_some_iff]
    exact ⟨And.left, fun hf => ⟨hf, (isOfValue_of_value htag hf).not_isProblem⟩⟩
  have hother : ∀ {tag : Tag}, tag ∈ [Tag.merge, .null, .default, .text] →
      (value tag (Text.ofChars w) = .error f ∧ ¬f.IsProblem ↔ faultUnder? tag w = some f) := by
    intro tag htag
    have hnone : faultUnder? tag w = none := by
      simp only [List.mem_cons, List.not_mem_nil, or_false] at htag
      rcases htag with rfl | rfl | rfl | rfl <;> rfl
    rw [hnone]
    exact ⟨fun hf => absurd (isProblem_of_value htag hf.1) hf.2, by rintro ⟨⟩⟩
  rw [plainFault?, tagOfPlain_ofChars h]
  split_ifs with htruth hfloat hint _ _ hmoment
  · refine hordinary (by simp [IsOrdinaryTag]) ?_
    rw [value, fault?_map, hcs, fault?_truth htruth]
    rfl
  · refine hordinary (by simp [IsOrdinaryTag]) ?_
    rw [value, fault?_map, hcs, fault?_float hfloat]
    rfl
  · refine hordinary (by simp [IsOrdinaryTag]) ?_
    rw [value, fault?_map, hcs, fault?_int hint]
    rfl
  · exact hother (by simp)
  · exact hother (by simp)
  · refine hordinary (by simp [IsOrdinaryTag]) ?_
    rw [value, fault?_map, hcs, withoutFinalBreak_eq_self h, fault?_moment hmoment]
    rfl
  · exact hother (by simp)
  · exact hother (by simp)

end Scalar
end ContainerDocs.Yaml

import ContainerDocs.Schema.Check
import Mathlib.Data.List.Forall2

/-!
# What checks accept

When a check of a JSON value succeeds, and with which result, told for each way to build a check
from others.

## Main statements

* `Check.map_eq_ok_iff`, `Check.seq_eq_ok_iff`, `Check.all_eq_ok_iff` — checks put together.
* `Schema.text_eq_ok_iff`, `Schema.record_eq_ok_iff`, `Schema.listOf_eq_ok_iff`,
  `Schema.nullable_eq_ok_iff` — the checks of the single kinds of values.
* `Schema.required_eq_ok_iff`, `Schema.optional_eq_ok_iff` — fields of a record.
-/

namespace ContainerDocs

/-! ## Checks put together -/

namespace Check

variable {α β : Type} {a : α} {b : β}

@[simp] theorem map_ok (f : α → β) (a : α) : f <$> Check.ok a = .ok (f a) := rfl

@[simp] theorem map_issues (f : α → β) (is : List Issue) :
    f <$> (Check.issues is : Check α) = .issues is := rfl

@[simp] theorem ok_seq_ok (f : α → β) (a : α) : Check.ok f <*> Check.ok a = .ok (f a) := rfl

@[simp] theorem ok_seq_issues (f : α → β) (is : List Issue) :
    Check.ok f <*> (.issues is : Check α) = .issues is := rfl

@[simp] theorem issues_seq_ok (is : List Issue) (a : α) :
    (.issues is : Check (α → β)) <*> .ok a = .issues is := rfl

@[simp] theorem issues_seq_issues (is js : List Issue) :
    (.issues is : Check (α → β)) <*> (.issues js : Check α) = .issues (is ++ js) := rfl

theorem map_eq_ok_iff {x : Check α} {f : α → β} :
    f <$> x = .ok b ↔ ∃ a, x = .ok a ∧ f a = b := by
  cases x <;> simp

theorem seq_eq_ok_iff {f : Check (α → β)} {x : Check α} :
    f <*> x = .ok b ↔ ∃ g a, f = .ok g ∧ x = .ok a ∧ g a = b := by
  cases f <;> cases x <;> simp

theorem at_eq_ok_iff {x : Check α} {step : Step} : x.at_ step = .ok a ↔ x = .ok a := by
  cases x <;> simp [at_]

/-- All checks together succeed when each of them does. -/
theorem all_eq_ok_iff {xs : List (Check α)} {as : List α} :
    all xs = .ok as ↔ List.Forall₂ (fun x a => x = .ok a) xs as := by
  induction xs generalizing as with
  | nil => cases as <;> simp [all]
  | cons x xs ih =>
    cases x with
    | issues is =>
      refine iff_of_false ?_ ?_
      · rw [all]
        cases all xs <;> simp [both, map]
      · rintro (_ | ⟨⟨⟩, -⟩)
    | ok a =>
      have hall : all (.ok a :: xs) = .ok as ↔ ∃ bs, all xs = .ok bs ∧ a :: bs = as := by
        rw [all]
        cases all xs <;> simp [both, map]
      rw [hall]
      constructor
      · rintro ⟨bs, hbs, rfl⟩
        exact .cons rfl (ih.1 hbs)
      · rintro (_ | ⟨⟨⟩, h⟩)
        exact ⟨_, ih.2 h, rfl⟩

end Check

/-! ## Checks of JSON values -/

/-- The entry that a check finds under a name is the field of that name. -/
theorem Datum.lookup_ofJsonFields (fields : List (Text × Json)) (name : String) :
    Datum.lookup (ofJsonFields fields) name =
      (Json.lookup fields (Text.ofString name)).map ofJson := by
  induction fields with
  | nil => rfl
  | cons field fields ih =>
    obtain ⟨n, v⟩ := field
    have hcons : Datum.lookup (ofJsonFields ((n, v) :: fields)) name =
        if n = Text.ofString name then some (ofJson v)
        else Datum.lookup (ofJsonFields fields) name := by
      rw [ofJsonFields, Datum.lookup, List.findSome?_cons]
      split_ifs with hn <;> simp [Datum.lookup, hn]
    rw [hcons, ih, Json.lookup, Json.lookup, List.find?_cons]
    by_cases hn : n = Text.ofString name <;> simp [hn]

theorem Datum.ofJsonItems_eq_map (items : List Json) : ofJsonItems items = items.map ofJson := by
  induction items with
  | nil => rfl
  | cons v items ih => exact congrArg (ofJson v :: ·) ih

namespace Schema

variable {α : Type} {v : Json} {fields : List (Text × Json)} {name : String} {a : α}
  {check : Datum → Check α}

theorem text_eq_ok_iff {t : Text} : text (.ofJson v) = .ok t ↔ v = .text t := by
  cases v <;> simp [text, Datum.ofJson, Check.fail]

theorem record_eq_ok_iff {check : List (Datum × Datum) → Check α} :
    record check (.ofJson v) = .ok a ↔
      ∃ fields, v = .object fields ∧ check (Datum.ofJsonFields fields) = .ok a := by
  cases v <;> simp [record, Datum.ofJson, Check.fail]

/-- A list is an array whose elements are accepted one by one. -/
theorem listOf_eq_ok_iff {as : List α} : listOf check (.ofJson v) = .ok as ↔
    ∃ items, v = .array items ∧ List.Forall₂ (fun v a => check (.ofJson v) = .ok a) items as := by
  cases v with
  | array items =>
    have hlist : listOf check (.ofJson (.array items)) = .ok as ↔
        List.Forall₂ (fun v a => check (.ofJson v) = .ok a) items as := by
      rw [Datum.ofJson, listOf, Check.all_eq_ok_iff, Datum.ofJsonItems_eq_map,
        List.forall₂_iff_get, List.forall₂_iff_get]
      simp [Check.at_eq_ok_iff]
    simp [hlist]
  | _ => simp [listOf, Datum.ofJson, Check.fail]

theorem nullable_eq_ok_iff {o : Option α} : nullable check (.ofJson v) = .ok o ↔
    v = .null ∧ o = none ∨ v ≠ .null ∧ ∃ a, check (.ofJson v) = .ok a ∧ o = some a := by
  have hsome : ∀ d, Check.map some (check d) = .ok o ↔ ∃ a, check d = .ok a ∧ o = some a := by
    intro d
    cases check d <;> simp [Check.map, eq_comm]
  cases v <;> simp [nullable, Datum.ofJson, hsome, eq_comm]

theorem required_eq_ok_iff : required (Datum.ofJsonFields fields) name check = .ok a ↔
    ∃ v, Json.lookup fields (Text.ofString name) = some v ∧ check (.ofJson v) = .ok a := by
  rw [required, Datum.lookup_ofJsonFields]
  cases Json.lookup fields (Text.ofString name) <;> simp [Check.at_eq_ok_iff, Check.fail]

theorem optional_eq_ok_iff {default : α} :
    optional (Datum.ofJsonFields fields) name default check = .ok a ↔
      (∃ v, Json.lookup fields (Text.ofString name) = some v ∧ check (.ofJson v) = .ok a) ∨
        Json.lookup fields (Text.ofString name) = none ∧ default = a := by
  rw [optional, Datum.lookup_ofJsonFields]
  cases Json.lookup fields (Text.ofString name) <;> simp [Check.at_eq_ok_iff]

end Schema
end ContainerDocs

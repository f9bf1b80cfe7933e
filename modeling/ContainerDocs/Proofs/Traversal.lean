import Mathlib.Data.List.Forall2

/-!
# What a traversal of a list gives

A traversal succeeds exactly if every step does, and its values are those of the steps, in order.

## Main statements

* `Traversal.forall₂_of_mapM` — the values of a traversal.
* `Traversal.exists_mapM`, `Traversal.exists_mapM_some` — a traversal all of whose steps succeed.
* `Traversal.exists_of_mapM_error` — the step at which a traversal fails.
-/

namespace ContainerDocs.Traversal

variable {α β ε : Type} {as : List α} {bs : List β}

/-! ## Results and errors -/

section Except

variable {f : α → Except ε β}

/-- A traversal succeeds if every step does. -/
theorem exists_mapM (h : ∀ a ∈ as, ∃ b, f a = .ok b) : ∃ bs, as.mapM f = .ok bs := by
  induction as with
  | nil => exact ⟨[], rfl⟩
  | cons a as ih =>
    obtain ⟨ha, has⟩ := List.forall_mem_cons.1 h
    obtain ⟨b, hb⟩ := ha
    obtain ⟨bs, hbs⟩ := ih has
    rw [List.mapM_cons, hb, hbs]
    exact ⟨_, rfl⟩

/-- A traversal gives a value for each element. -/
theorem forall₂_of_mapM (h : as.mapM f = .ok bs) :
    List.Forall₂ (fun a b => f a = .ok b) as bs := by
  induction as generalizing bs with
  | nil =>
    cases h
    exact .nil
  | cons a as ih =>
    rw [List.mapM_cons] at h
    cases hb : f a with
    | error e =>
      rw [hb] at h
      cases h
    | ok b =>
      cases hrest : as.mapM f with
      | error e =>
        rw [hb, hrest] at h
        cases h
      | ok rest =>
        rw [hb, hrest] at h
        cases h
        exact .cons hb (ih hrest)

theorem exists_of_mem_of_mapM (h : as.mapM f = .ok bs) : ∀ a ∈ as, ∃ b, f a = .ok b := by
  have hall := forall₂_of_mapM h
  clear h
  induction hall with
  | nil => simp
  | cons hab _ ih => exact List.forall_mem_cons.2 ⟨⟨_, hab⟩, ih⟩

/-- A traversal gives values of elements only. -/
theorem exists_of_mem_mapM (h : as.mapM f = .ok bs) : ∀ b ∈ bs, ∃ a ∈ as, f a = .ok b := by
  have hall := forall₂_of_mapM h
  clear h
  induction hall with
  | nil => exact List.forall_mem_nil _
  | cons hab _ ih =>
    refine List.forall_mem_cons.2 ⟨⟨_, List.mem_cons_self, hab⟩, fun b hb => ?_⟩
    obtain ⟨a, ha, hfa⟩ := ih b hb
    exact ⟨a, List.mem_cons_of_mem _ ha, hfa⟩

/-- A traversal that fails does so at an element. -/
theorem exists_of_mapM_error {e : ε} (h : as.mapM f = .error e) : ∃ a ∈ as, f a = .error e := by
  induction as with
  | nil => cases h
  | cons a as ih =>
    cases hb : f a with
    | error e' =>
      rw [List.mapM_cons, hb] at h
      cases h
      exact ⟨a, List.mem_cons_self, hb⟩
    | ok b =>
      cases hrest : as.mapM f with
      | error e' =>
        rw [List.mapM_cons, hb, hrest] at h
        cases h
        obtain ⟨a', ha', herror⟩ := ih hrest
        exact ⟨a', List.mem_cons_of_mem _ ha', herror⟩
      | ok rest =>
        rw [List.mapM_cons, hb, hrest] at h
        cases h

end Except

/-! ## Values -/

section Option

variable {f : α → Option β}

theorem exists_mapM_some (h : ∀ a ∈ as, (f a).isSome = true) : ∃ bs, as.mapM f = some bs := by
  induction as with
  | nil => exact ⟨[], rfl⟩
  | cons a as ih =>
    rw [List.forall_mem_cons] at h
    obtain ⟨b, hb⟩ := Option.isSome_iff_exists.1 h.1
    obtain ⟨bs, hbs⟩ := ih h.2
    exact ⟨b :: bs, by rw [List.mapM_cons, hb, hbs]; rfl⟩

end Option

end ContainerDocs.Traversal

import ContainerDocs.Tool.Adapter
import Mathlib.Data.List.Basic

/-!
# Steps of the program

What a step gives and what it leaves, in a world and on a machine. A further step starts from what
the step before it left, unless that one stopped.

## Main definitions

* `Run.exec` — the result of a step and the machine after it.
* `World.place` — the working directory as a place.

## Main statements

* `Run.exec_bind` — what two steps in a row do.
* `Run.exec_bind_eq_ok` — when two steps in a row give a value.
* `Run.exec_attempt` — an attempt never stops.
-/

namespace ContainerDocs

def World.place (w : World) : Place := (Path.components w.directory).filter (!·.isEmpty)

namespace Run

variable {α β : Type} {w : World} {m m' : Machine}

def exec (step : Run α) (w : World) (m : Machine) : Except Stop α × Machine :=
  (step.run w).run.run m

/-! ## Single steps -/

@[simp] theorem exec_pure (a : α) (w : World) (m : Machine) : exec (pure a) w m = (.ok a, m) := rfl

@[simp] theorem exec_throw (e : Stop) (w : World) (m : Machine) :
    exec (throw e : Run α) w m = (.error e, m) := rfl

@[simp] theorem exec_fail (f : Failure) (w : World) (m : Machine) :
    exec (fail f : Run α) w m = (.error (.failure f), m) := rfl

@[simp] theorem exec_read (w : World) (m : Machine) : exec read w m = (.ok w, m) := rfl

@[simp] theorem exec_get (w : World) (m : Machine) : exec get w m = (.ok m, m) := rfl

theorem exec_place (w : World) (m : Machine) : exec place w m = (.ok w.place, m) := rfl

@[simp] theorem exec_note (level : Level) (text : String) (w : World) (m : Machine) :
    exec (note level text) w m = (.ok (), { m with notes := (level, text) :: m.notes }) := rfl

@[simp] theorem exec_ofExcept (r : Except Stop α) (w : World) (m : Machine) :
    exec (ofExcept r) w m = (r, m) := by
  cases r <;> rfl

/-! ## Steps in a row -/

theorem exec_bind (step : Run α) (next : α → Run β) (w : World) (m : Machine) :
    exec (step >>= next) w m =
      match exec step w m with
      | (.ok a, m₁) => exec (next a) w m₁
      | (.error e, m₁) => (.error e, m₁) := by
  simp only [exec, ReaderT.run_bind, ExceptT.run_bind, StateT.run_bind]
  rcases (step.run w).run.run m with ⟨_ | _, m₁⟩ <;> rfl

theorem exec_map (f : α → β) (step : Run α) (w : World) (m : Machine) :
    exec (f <$> step) w m = ((exec step w m).1.map f, (exec step w m).2) := by
  rw [map_eq_pure_bind, exec_bind]
  rcases exec step w m with ⟨_ | _, m₁⟩ <;> rfl

theorem exec_tryCatch (step : Run α) (handle : Stop → Run α) (w : World) (m : Machine) :
    exec (tryCatch step handle) w m =
      match exec step w m with
      | (.ok a, m₁) => (.ok a, m₁)
      | (.error e, m₁) => exec (handle e) w m₁ := by
  have h : (tryCatch step handle).run w = tryCatch (step.run w) fun e => (handle e).run w := rfl
  simp only [exec, h, ExceptT.run_tryCatch, StateT.run_bind]
  rcases (step.run w).run.run m with ⟨_ | _, m₁⟩ <;> rfl

/-- An attempt gives the outcome of the step as a value. -/
theorem exec_attempt (step : Run α) (w : World) (m : Machine) :
    exec (Adapter.attempt step) w m = (.ok (exec step w m).1, (exec step w m).2) := by
  rw [Adapter.attempt, exec_tryCatch, exec_map]
  rcases exec step w m with ⟨_ | _, m₁⟩ <;> rfl

theorem exec_tryFinally {α : Type} (step : Run α) (last : Run Unit) (w : World) (m : Machine) :
    exec (tryFinally step last) w m =
      match exec step w m with
      | (r, m₁) =>
        match exec last w m₁ with
        | (.ok _, m₂) => (r, m₂)
        | (.error e, m₂) => (.error e, m₂) := by
  simp only [exec, tryFinally, tryFinally', ReaderT.run, ExceptT.run, StateT.run, Functor.map,
    ExceptT.map, ExceptT.mk, bind, StateT.bind, pure]
  rcases step w m with ⟨_ | _, m₁⟩ <;> dsimp only <;> rcases last w m₁ with ⟨_ | _, m₂⟩ <;> rfl

/-- Taking interruptions as wishes to cancel lasts as long as the step. -/
theorem exec_catching {α : Type} (step : Run α) (w : World) (m : Machine) :
    exec (catching step) w m =
      match exec step w { m with catching := true, cancelled := false } with
      | (r, m₁) => (r, { m₁ with catching := false }) := by
  have hstart : exec (modify fun m => { m with catching := true, cancelled := false } : Run Unit)
      w m = (.ok (), { m with catching := true, cancelled := false }) := rfl
  rw [catching, exec_bind, hstart]
  exact exec_tryFinally ..

/-! ## Steps that give a value -/

theorem exec_bind_eq_ok {step : Run α} {next : α → Run β} {b : β} :
    exec (step >>= next) w m = (.ok b, m') ↔
      ∃ a m₁, exec step w m = (.ok a, m₁) ∧ exec (next a) w m₁ = (.ok b, m') := by
  rw [exec_bind]
  rcases exec step w m with ⟨e | a, m₁⟩
  · simp
  · constructor
    · exact fun h => ⟨a, m₁, rfl, h⟩
    · rintro ⟨a', m₁', h, h'⟩
      cases h
      exact h'

/-- What a step gives and what it leaves behind. -/
theorem exec_eq_of_fst {step : Run α} {r : Except Stop α} (h : (exec step w m).1 = r) :
    exec step w m = (r, (exec step w m).2) := Prod.ext h rfl

theorem exists_of_isOk {ε : Type} {r : Except ε α} (h : r.isOk = true) : ∃ a, r = .ok a := by
  cases r with
  | error e => cases h
  | ok a => exact ⟨a, rfl⟩

end Run
end ContainerDocs

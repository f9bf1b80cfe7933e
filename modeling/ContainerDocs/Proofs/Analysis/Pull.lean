import ContainerDocs.Proofs.Analysis.Determined
import ContainerDocs.Proofs.System.Quiet
import ContainerDocs.Proofs.Tool.Commands

/-!
# Which images are there

An image is looked for with the runtime's inspection, and pulled if it is not there: up to the first
pull that succeeds, and three times at most. Images are looked for one after another, so that how a
command ends may depend on all that was started for the images before. An image that is refused, or
that no pull brings, is left out or ends the search.

## Main definitions

* `World.Succeeds`, `World.FailsFirst` — a command gives its output, or does not at first.
* `Pull.Search` — what happens when one image is looked for.
* `Pull.Visit`, `Pull.Visits` — images that were looked for one after another.

## Main statements

* `Pull.exec_attempts` — pulls go on up to the first one that succeeds.
* `Pull.looksFor_prepare` — what the search for one image starts and gives.
* `Pull.ensureAll_keeps_ready` — the images that are kept are those that are there.
-/

namespace ContainerDocs

open Run

def World.IsUninterrupted (w : World) : Prop :=
  ∀ before argv b, w.respond before argv = .runs b → b.interruptions = 0

/-- The container runtime of a world, the preferred one if both are there. -/
def World.runtime? (w : World) : Option String :=
  Tools.runtimes.find? fun name => (w.find? name).isSome

/-- A command that is started after others gives its output. -/
def World.Succeeds (w : World) (timeout : Binary64) (before : List (List String))
    (argv : List String) : Prop :=
  ∃ output, w.outcome timeout before argv = .ok output

/-- A command that is started again and again after others fails the first times. -/
def World.FailsFirst (w : World) (timeout : Binary64) (before : List (List String))
    (argv : List String) (times : Nat) : Prop :=
  ∀ j < times, ¬w.Succeeds timeout (List.replicate j argv ++ before) argv

section FailsFirst

variable {w : World} {timeout : Binary64} {before : List (List String)} {argv : List String}

theorem not_succeeds_of_outcome {f : ToolFailure}
    (h : w.outcome timeout before argv = .error f) : ¬w.Succeeds timeout before argv := by
  rintro ⟨output, houtput⟩
  rw [h] at houtput
  cases houtput

theorem failsFirst_zero : w.FailsFirst timeout before argv 0 := fun j hj => absurd hj j.not_lt_zero

theorem replicate_succ_append (k : Nat) (argv : List String) (before : List (List String)) :
    List.replicate (k + 1) argv ++ before = List.replicate k argv ++ argv :: before := by
  rw [List.replicate_succ', List.append_assoc, List.singleton_append]

theorem failsFirst_succ {k : Nat} (h : ¬w.Succeeds timeout before argv)
    (hrest : w.FailsFirst timeout (argv :: before) argv k) :
    w.FailsFirst timeout before argv (k + 1) := by
  intro j hj
  cases j with
  | zero => exact h
  | succ j =>
    rw [replicate_succ_append]
    exact hrest j (Nat.lt_of_succ_lt_succ hj)

end FailsFirst

namespace Pull

/-- An inspection of an image and a number of pulls after it, the last command first. -/
def searchCommands (runtime image : String) (pulls : Nat) : List (List String) :=
  List.replicate pulls (ImageUse.pull.command runtime image) ++
    [ImageUse.presence.command runtime image]

/-- What happens when an image is looked for after the commands `before`: the commands that are
started, the last one first, and the reason for which the image is not there in the end, if it is
not. -/
inductive Search (w : World) (timeout : Binary64) (before : List (List String)) (image : String) :
    List (List String) → Option Failure → Prop
  | refused {f : ImageFailure} (hrefused : Analysis.validate image = .error (.invalidImage f)) :
      Search w timeout before image [] (some (.invalidImage f))
  | noRuntime {r : ImageReference} (hvalid : Analysis.validate image = .ok r)
      (hruntime : w.runtime? = none) : Search w timeout before image [] (some (.pull .noRuntime))
  | there {r : ImageReference} {runtime : String} (hvalid : Analysis.validate image = .ok r)
      (hruntime : w.runtime? = some runtime)
      (hthere : w.Succeeds timeout before (ImageUse.presence.command runtime image)) :
      Search w timeout before image (searchCommands runtime image 0) none
  | pulled {r : ImageReference} {runtime : String} {k : Nat}
      (hvalid : Analysis.validate image = .ok r) (hruntime : w.runtime? = some runtime)
      (hmissing : ¬w.Succeeds timeout before (ImageUse.presence.command runtime image)) (hk : k < 3)
      (hfailed : w.FailsFirst timeout (ImageUse.presence.command runtime image :: before)
        (ImageUse.pull.command runtime image) k)
      (hpulled : w.Succeeds timeout (searchCommands runtime image k ++ before)
        (ImageUse.pull.command runtime image)) :
      Search w timeout before image (searchCommands runtime image (k + 1)) none
  | missing {r : ImageReference} {runtime : String} {f : ToolFailure}
      (hvalid : Analysis.validate image = .ok r) (hruntime : w.runtime? = some runtime)
      (hmissing : ¬w.Succeeds timeout before (ImageUse.presence.command runtime image))
      (hfailed : w.FailsFirst timeout (ImageUse.presence.command runtime image :: before)
        (ImageUse.pull.command runtime image) 3)
      (hlast : w.outcome timeout (searchCommands runtime image 2 ++ before)
        (ImageUse.pull.command runtime image) = .error f) :
      Search w timeout before image (searchCommands runtime image 3)
        (some (.pull (.failed image f)))

def verdict : Option Failure → Except Stop Unit
  | none => .ok ()
  | some f => .error (.failure f)

/-- An image that was looked for: the commands that were started for it, the last one first, and the
reason for which it is not there, if it is not. -/
structure Visit where
  image : String
  commands : List (List String)
  failure? : Option Failure

/-- Images are looked for one after another, each one after the commands for those before. -/
def Visits (w : World) (timeout : Binary64) : List (List String) → List Visit → Prop
  | _, [] => True
  | before, v :: rest =>
    Search w timeout before v.image v.commands v.failure? ∧
      Visits w timeout (v.commands ++ before) rest

/-- The commands for images that were looked for one after another, the last one first. -/
def allCommands (visits : List Visit) : List (List String) :=
  visits.reverse.flatMap (·.commands)

variable {w : World} {timeout : Binary64} {m : Machine} {image runtime : String}

theorem allCommands_cons (v : Visit) (visits : List Visit) :
    allCommands (v :: visits) = allCommands visits ++ v.commands := by
  simp [allCommands]

theorem searchCommands_append (runtime image : String) (k : Nat) (before : List (List String)) :
    searchCommands runtime image k ++ before =
      List.replicate k (ImageUse.pull.command runtime image) ++
        ImageUse.presence.command runtime image :: before := by
  rw [searchCommands, List.append_assoc, List.singleton_append]

/-- A reason for which an image is not there is one that images are left out for. -/
theorem Search.isSkipped {before commands : List (List String)} {f : Failure}
    (h : Search w timeout before image commands (some f)) : IsSkipped (.failure f) := by
  cases h with
  | refused => exact .invalid _
  | noRuntime => exact .pull _
  | missing => exact .pull _

/-- An image is accepted and, after other commands, its inspection or one of three pulls
succeeds. -/
def IsUsable (w : World) (timeout : Binary64) (before : List (List String)) (image : String) :
    Prop :=
  ∃ r runtime, Analysis.validate image = .ok r ∧ w.runtime? = some runtime ∧
    (w.Succeeds timeout before (ImageUse.presence.command runtime image) ∨
      ∃ k < 3, w.Succeeds timeout (searchCommands runtime image k ++ before)
        (ImageUse.pull.command runtime image))

/-- There is no reason why an image is not there if and only if it is usable. -/
theorem Search.failure?_eq_none_iff {before commands : List (List String)}
    {failure? : Option Failure} (h : Search w timeout before image commands failure?) :
    failure? = none ↔ IsUsable w timeout before image := by
  constructor
  · rintro rfl
    cases h with
    | there hvalid hruntime hthere => exact ⟨_, _, hvalid, hruntime, .inl hthere⟩
    | pulled hvalid hruntime _ hk _ hpulled =>
      exact ⟨_, _, hvalid, hruntime, .inr ⟨_, hk, hpulled⟩⟩
  · rintro ⟨r, runtime, hvalid, hruntime, husable⟩
    cases h with
    | refused hrefused =>
      rw [hrefused] at hvalid
      cases hvalid
    | noRuntime _ hnone =>
      rw [hnone] at hruntime
      cases hruntime
    | there => rfl
    | pulled => rfl
    | missing _ hruntime' hmissing hfailed _ =>
      obtain rfl := Option.some.inj (hruntime'.symm.trans hruntime)
      obtain hthere | ⟨k, hk, hpulled⟩ := husable
      · exact absurd hthere hmissing
      · rw [searchCommands_append] at hpulled
        exact absurd hpulled (hfailed k hk)

/-- Without a container runtime no command is started. -/
theorem Search.of_noRuntime {before commands : List (List String)} {failure? : Option Failure}
    (h : Search w timeout before image commands failure?) (hruntime : w.runtime? = none) :
    commands = [] ∧ failure? ≠ none := by
  refine ⟨?_, fun hnone => ?_⟩
  · cases h with
    | refused => rfl
    | noRuntime => rfl
    | there _ hsome => exact absurd (hruntime.symm.trans hsome) (Option.some_ne_none _).symm
    | pulled _ hsome => exact absurd (hruntime.symm.trans hsome) (Option.some_ne_none _).symm
    | missing _ hsome => exact absurd (hruntime.symm.trans hsome) (Option.some_ne_none _).symm
  · obtain ⟨_, _, _, hsome, _⟩ := h.failure?_eq_none_iff.1 hnone
    rw [hruntime] at hsome
    cases hsome

theorem Visits.of_noRuntime {before : List (List String)} {visits : List Visit}
    (h : Visits w timeout before visits) (hruntime : w.runtime? = none) :
    ∀ v ∈ visits, v.commands = [] ∧ v.failure? ≠ none := by
  induction visits generalizing before with
  | nil => simp
  | cons v rest ih => exact List.forall_mem_cons.2 ⟨h.1.of_noRuntime hruntime, ih h.2⟩

theorem Visits.allCommands_eq_nil {before : List (List String)} {visits : List Visit}
    (h : Visits w timeout before visits) (hruntime : w.runtime? = none) :
    allCommands visits = [] :=
  List.flatMap_eq_nil_iff.2 fun v hv => (h.of_noRuntime hruntime v (List.mem_reverse.1 hv)).1

/-! ## One image -/

/-- A step looks for an image, whatever was started before. -/
def LooksFor (w : World) (timeout : Binary64) (image : String) (step : Run Unit) : Prop :=
  ∀ m, ∃ commands failure? m', Search w timeout m.commands image commands failure? ∧
    m'.commands = commands ++ m.commands ∧ exec step w m = (verdict failure?, m')

section Uninterrupted

variable (hw : w.IsUninterrupted)
include hw

theorem exec_once (runtime image : String) (timeout : Binary64) (m : Machine) :
    ∃ m', m'.commands = ImageUse.pull.command runtime image :: m.commands ∧
      ((w.Succeeds timeout m.commands (ImageUse.pull.command runtime image) ∧
          exec (once runtime image timeout) w m = (.ok none, m')) ∨
        ∃ f, w.outcome timeout m.commands (ImageUse.pull.command runtime image) = .error f ∧
          exec (once runtime image timeout) w m = (.ok (some f), m')) := by
  obtain ⟨m', hexec, hcommands⟩ := exec_attempt_command_unwatched (fun b => hw m.commands
    (ImageUse.pull.command runtime image) b) timeout none
  have hattempt : exec (Adapter.attempt
      (command [runtime, "pull", image] timeout false none false)) w m = _ := hexec
  refine ⟨m', hcommands, ?_⟩
  rw [once, exec_bind, hattempt]
  cases houtcome : w.outcome timeout m.commands (ImageUse.pull.command runtime image) with
  | ok output => exact .inl ⟨⟨output, houtcome⟩, rfl⟩
  | error f =>
    have hpass : mayPass f = true := by
      cases isEnd_of_outcome houtcome <;> rfl
    refine .inr ⟨f, rfl, ?_⟩
    dsimp only [Except.mapError]
    rw [if_pos hpass]
    rfl

/-- Pulls go on up to the first one that succeeds, with one pull after each pause at most. -/
theorem exec_attempts (runtime image : String) (timeout : Binary64) (pauses : List Rat)
    (m : Machine) :
    let pull := ImageUse.pull.command runtime image
    (∃ k m', k ≤ pauses.length ∧ w.FailsFirst timeout m.commands pull k ∧
        w.Succeeds timeout (List.replicate k pull ++ m.commands) pull ∧
        m'.commands = List.replicate (k + 1) pull ++ m.commands ∧
        exec (attempts runtime image timeout pauses) w m = (.ok (), m')) ∨
      ∃ f m', w.FailsFirst timeout m.commands pull (pauses.length + 1) ∧
        w.outcome timeout (List.replicate pauses.length pull ++ m.commands) pull = .error f ∧
        m'.commands = List.replicate (pauses.length + 1) pull ++ m.commands ∧
        exec (attempts runtime image timeout pauses) w m =
          (.error (.failure (.pull (.failed image f))), m') := by
  intro pull
  induction pauses generalizing m with
  | nil =>
    obtain ⟨m', hcommands, ⟨hpulled, hexec⟩ | ⟨f, hfailed, hexec⟩⟩ :=
      exec_once hw runtime image timeout m
    · refine .inl ⟨0, m', le_rfl, failsFirst_zero, hpulled, hcommands, ?_⟩
      rw [attempts, exec_bind, hexec]
      rfl
    · refine .inr ⟨f, m', failsFirst_succ (not_succeeds_of_outcome hfailed) failsFirst_zero,
        hfailed, hcommands, ?_⟩
      rw [attempts, exec_bind, hexec]
      rfl
  | cons seconds rest ih =>
    obtain ⟨m₁, hcommands₁, ⟨hpulled, hexec⟩ | ⟨f, hfailed, hexec⟩⟩ :=
      exec_once hw runtime image timeout m
    · refine .inl ⟨0, m₁, Nat.zero_le _, failsFirst_zero, hpulled, hcommands₁, ?_⟩
      rw [attempts, exec_bind, hexec]
      rfl
    · -- The attempts after the pause start on a machine with one more pull.
      let m₂ : Machine := { m₁ with clock := m₁.clock + seconds, pauses := seconds :: m₁.pauses }
      have hcommands₂ : m₂.commands = pull :: m.commands := hcommands₁
      have hgo : exec (attempts runtime image timeout (seconds :: rest)) w m =
          exec (attempts runtime image timeout rest) w m₂ := by
        rw [attempts, exec_bind, hexec]
        rfl
      have hfirst := not_succeeds_of_outcome hfailed
      have hrest := ih m₂
      rw [hcommands₂] at hrest
      rw [hgo]
      obtain ⟨k, m', hk, hfails, hpulled, hcommands, hexec'⟩ |
        ⟨f', m', hfails, hlast, hcommands, hexec'⟩ := hrest
      · refine .inl ⟨k + 1, m', Nat.succ_le_succ hk, failsFirst_succ hfirst hfails, ?_, ?_, hexec'⟩
        · rwa [replicate_succ_append]
        · rwa [replicate_succ_append (k + 1)]
      · refine .inr ⟨f', m', failsFirst_succ hfirst hfails, ?_, ?_, hexec'⟩
        · rwa [List.length_cons, replicate_succ_append]
        · rwa [List.length_cons, replicate_succ_append (rest.length + 1)]

/-- An accepted image is inspected, and pulled if it is not there. -/
theorem looksFor_ensure {r : ImageReference} (hvalid : Analysis.validate image = .ok r)
    (timeout : Binary64) : LooksFor w timeout image (ensure image none timeout) := by
  intro m
  have hfind : exec Tools.runtime? w m = (.ok w.runtime?, m) := rfl
  cases hruntime : w.runtime? with
  | none =>
    refine ⟨[], _, m, .noRuntime hvalid hruntime, rfl, ?_⟩
    unfold ensure
    dsimp only [Option.filter_none]
    rw [exec_bind, hfind, hruntime]
    rfl
  | some runtime =>
    obtain ⟨m₁, hinspect, hcommands₁⟩ := exec_attempt_command_unwatched (fun b => hw m.commands
      (ImageUse.presence.command runtime image) b) timeout none
    have hattempt : exec (Adapter.attempt
        (command [runtime, "inspect", "--type=image", image] timeout false none false)) w m = _ :=
      hinspect
    unfold ensure
    dsimp only [Option.filter_none]
    rw [exec_bind, hfind, hruntime]
    dsimp only
    rw [exec_bind, hattempt]
    cases houtcome : w.outcome timeout m.commands (ImageUse.presence.command runtime image) with
    | ok output =>
      refine ⟨_, none, _, .there hvalid hruntime ⟨output, houtcome⟩, ?_, rfl⟩
      exact hcommands₁
    | error f =>
      -- Two notes later the pulls begin.
      obtain ⟨m₂, hcommands₂, hpulls⟩ : ∃ m₂ : Machine,
          m₂.commands = ImageUse.presence.command runtime image :: m.commands ∧
          exec (do
            debug ("Image " ++ image ++ " not found locally: " ++ f.message)
            info ("Pulling image: " ++ image ++ " ...")
            attempts runtime image timeout pauses) w m₁ =
          exec (attempts runtime image timeout pauses) w m₂ := by
        refine ⟨_, ?_, rfl⟩
        exact hcommands₁
      have hmissing := not_succeeds_of_outcome houtcome
      have hattempts := exec_attempts hw runtime image timeout pauses m₂
      rw [hcommands₂] at hattempts
      obtain ⟨k, m', hk, hfails, hpulled, hcommands, hexec⟩ |
        ⟨f', m', hfails, hlast, hcommands, hexec⟩ := hattempts
      · refine ⟨_, none, m', .pulled hvalid hruntime hmissing (Nat.lt_succ_of_le hk) hfails ?_, ?_,
          hpulls.trans hexec⟩
        · rwa [searchCommands_append]
        · rw [hcommands, searchCommands_append]
      · refine ⟨_, _, m', .missing hvalid hruntime hmissing hfails ?_, ?_, hpulls.trans hexec⟩
        · rwa [searchCommands_append]
        · rw [hcommands, searchCommands_append]
          rfl

theorem looksFor_prepare (image : String) (timeout : Binary64) :
    LooksFor w timeout image (prepare image timeout) := by
  intro m
  cases hvalid : Analysis.validate image with
  | error f =>
    obtain ⟨f', rfl⟩ := Analysis.exists_invalidImage_of_validate hvalid
    refine ⟨[], some _, m, .refused hvalid, rfl, ?_⟩
    rw [prepare, Analysis.requireValid, hvalid]
    rfl
  | ok r =>
    rw [prepare, Analysis.requireValid_eq hvalid, pure_bind]
    exact looksFor_ensure hw hvalid timeout m

/-! ## Several images -/

/-- One image of a list is looked for, and then the others unless it ends the search. -/
theorem exec_ensureAll_cons (timeout : Binary64) (ignoreErrors : Bool) (image : String)
    (images : List String) (m : Machine) :
    ∃ (v : Visit) (m₁ : Machine), v.image = image ∧
      Search w timeout m.commands v.image v.commands v.failure? ∧
      m₁.commands = v.commands ++ m.commands ∧
      (v.failure? = none → exec (ensureAll timeout ignoreErrors (image :: images)) w m =
        exec ((image :: ·) <$> ensureAll timeout ignoreErrors images) w m₁) ∧
      ∀ f, v.failure? = some f → exec (ensureAll timeout ignoreErrors (image :: images)) w m =
        if ignoreErrors then exec (ensureAll timeout ignoreErrors images) w m₁
        else (.error (.failure f), m₁) := by
  obtain ⟨commands, failure?, m₁, hsearch, hcommands, hexec⟩ := looksFor_prepare hw image timeout m
  rw [ensureAll, exec_bind, exec_attempt, hexec]
  cases failure? with
  | none =>
    refine ⟨⟨image, commands, none⟩, m₁, rfl, hsearch, hcommands, fun _ => ?_, by rintro _ ⟨⟩⟩
    rw [map_eq_pure_bind]
    rfl
  | some f =>
    have hskipped := hsearch.isSkipped
    cases ignoreErrors with
    | false =>
      refine ⟨⟨image, commands, some f⟩, m₁, rfl, hsearch, hcommands, by rintro ⟨⟩, ?_⟩
      rintro _ ⟨⟩
      cases hskipped <;> rfl
    | true =>
      refine ⟨⟨image, commands, some f⟩, { m₁ with notes := (.warning, "Skipping analysis of " ++
        image ++ ": " ++ f.message) :: m₁.notes }, rfl, hsearch, hcommands, by rintro ⟨⟩, ?_⟩
      rintro _ ⟨⟩
      cases hskipped <;> rfl

/-- When failures are ignored, all images are looked for and those that are there are kept. -/
theorem exec_ensureAll_ignoring (timeout : Binary64) (images : List String) (m : Machine) :
    ∃ visits m', Visits w timeout m.commands visits ∧ visits.map (·.image) = images ∧
      m'.commands = allCommands visits ++ m.commands ∧
      exec (ensureAll timeout true images) w m =
        (.ok ((visits.filter (·.failure?.isNone)).map (·.image)), m') := by
  induction images generalizing m with
  | nil => exact ⟨[], m, trivial, rfl, rfl, rfl⟩
  | cons image images ih =>
    obtain ⟨v, m₁, rfl, hsearch, hcommands₁, hthere, hmissing⟩ :=
      exec_ensureAll_cons hw timeout true image images m
    obtain ⟨visits, m', hvisits, himages, hcommands, hrest⟩ := ih m₁
    rw [hcommands₁] at hvisits hcommands
    refine ⟨v :: visits, m', ⟨hsearch, hvisits⟩, ?_, ?_, ?_⟩
    · rw [List.map_cons, himages]
    · rw [hcommands, allCommands_cons, List.append_assoc]
    · cases hv : v.failure? with
      | none =>
        rw [hthere hv, exec_map, hrest, List.filter_cons_of_pos (by rw [hv]; rfl)]
        rfl
      | some f =>
        rw [hmissing f hv, if_pos rfl, hrest, List.filter_cons_of_neg (by rw [hv]; simp)]

/-- When failures count, images are looked for up to the first one that is not there. -/
theorem exec_ensureAll_strict (timeout : Binary64) (images : List String) (m : Machine) :
    (∃ visits m', Visits w timeout m.commands visits ∧ visits.map (·.image) = images ∧
        (∀ v ∈ visits, v.failure? = none) ∧ m'.commands = allCommands visits ++ m.commands ∧
        exec (ensureAll timeout false images) w m = (.ok images, m')) ∨
      ∃ visits last f rest m', Visits w timeout m.commands (visits ++ [last]) ∧
        (visits ++ [last]).map (·.image) ++ rest = images ∧
        (∀ v ∈ visits, v.failure? = none) ∧ last.failure? = some f ∧
        m'.commands = allCommands (visits ++ [last]) ++ m.commands ∧
        exec (ensureAll timeout false images) w m = (.error (.failure f), m') := by
  induction images generalizing m with
  | nil => exact .inl ⟨[], m, trivial, rfl, by simp, rfl, rfl⟩
  | cons image images ih =>
    obtain ⟨v, m₁, rfl, hsearch, hcommands₁, hthere, hmissing⟩ :=
      exec_ensureAll_cons hw timeout false image images m
    cases hv : v.failure? with
    | some f =>
      refine .inr ⟨[], v, f, images, m₁, ⟨hsearch, trivial⟩, rfl, by simp, hv, ?_, hmissing f hv⟩
      rw [hcommands₁, List.nil_append, allCommands_cons]
      rfl
    | none =>
      obtain ⟨visits, m', hvisits, himages, hall, hcommands, hrest⟩ |
        ⟨visits, last, f, rest, m', hvisits, himages, hall, hlast, hcommands, hrest⟩ := ih m₁
      · rw [hcommands₁] at hvisits hcommands
        refine .inl ⟨v :: visits, m', ⟨hsearch, hvisits⟩, ?_, ?_, ?_, ?_⟩
        · rw [List.map_cons, himages]
        · exact List.forall_mem_cons.2 ⟨hv, hall⟩
        · rw [hcommands, allCommands_cons, List.append_assoc]
        · rw [hthere hv, exec_map, hrest]
          rfl
      · rw [hcommands₁] at hvisits hcommands
        refine .inr ⟨v :: visits, last, f, rest, m', ⟨hsearch, hvisits⟩, ?_, ?_, hlast, ?_, ?_⟩
        · rw [List.cons_append, List.map_cons, List.cons_append, himages]
        · exact List.forall_mem_cons.2 ⟨hv, hall⟩
        · rw [hcommands, List.cons_append, allCommands_cons, List.append_assoc]
        · rw [hthere hv, exec_map, hrest]
          rfl

/-- Without a container runtime no command is started, and no image is kept. -/
theorem exec_ensureAll_of_noRuntime (hruntime : w.runtime? = none) (timeout : Binary64)
    (ignoreErrors : Bool) (images : List String) (m : Machine) :
    (exec (ensureAll timeout ignoreErrors images) w m).2.commands = m.commands ∧
      ∀ kept, (exec (ensureAll timeout ignoreErrors images) w m).1 = .ok kept → kept = [] := by
  cases ignoreErrors with
  | true =>
    obtain ⟨visits, m', hvisits, -, hcommands, hexec⟩ :=
      exec_ensureAll_ignoring hw timeout images m
    have hmissing := hvisits.of_noRuntime hruntime
    rw [hexec, hcommands, hvisits.allCommands_eq_nil hruntime]
    refine ⟨rfl, ?_⟩
    rintro _ ⟨⟩
    rw [List.filter_eq_nil_iff.2 fun v hv => by simpa using (hmissing v hv).2]
    rfl
  | false =>
    obtain ⟨visits, m', hvisits, himages, hall, hcommands, hexec⟩ |
      ⟨visits, last, f, rest, m', hvisits, -, -, -, hcommands, hexec⟩ :=
      exec_ensureAll_strict hw timeout images m
    · have hmissing := hvisits.of_noRuntime hruntime
      rw [hexec, hcommands, hvisits.allCommands_eq_nil hruntime]
      refine ⟨rfl, ?_⟩
      rintro _ ⟨⟩
      obtain rfl : visits = [] :=
        List.eq_nil_iff_forall_not_mem.2 fun v hv => (hmissing v hv).2 (hall v hv)
      exact himages.symm
    · rw [hexec, hcommands, hvisits.allCommands_eq_nil hruntime]
      exact ⟨rfl, by rintro _ ⟨⟩⟩

end Uninterrupted

/-- A world in which the second pull brings one image, and every pull of another one takes too long.
-/
def balking : World where
  respond before argv :=
    if argv = ImageUse.pull.command "podman" "busybox" then
      .runs { status := if before.count argv = 0 then 1 else 0 }
    else if argv = ImageUse.presence.command "podman" "alpine:3.20" then
      .runs { output := [91, 93] }
    else if argv = ImageUse.pull.command "podman" "nginx" then .runs { duration := 900 }
    else .runs { status := 125 }
  find? name := if name = "podman" then some "/usr/bin/podman" else none
  environment := []
  directory := "/"
  now := fun _ => ⟨⟨2024, 1, 1⟩, 0, 0, 0, 0, none⟩

end Pull
end ContainerDocs

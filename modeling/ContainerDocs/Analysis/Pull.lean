import ContainerDocs.Analysis.Basic

/-!
# Pulling images

An image that is not there is pulled before it is analyzed. A pull that fails or takes too long is
tried again, with a growing pause before each further attempt.

## Main definitions

* `Pull.ensure` — makes sure that an image is there.
* `Pull.ensureAll` — the images of a list that are there.
-/

namespace ContainerDocs
namespace Pull

def pauses : List Rat := [1, 2]

/-- Whether another attempt may help. -/
def mayPass : ToolFailure → Bool
  | .failed .. | .timedOut .. => true
  | _ => false

/-- Pulls an image once: nothing, or a failure after which another attempt may help. -/
def once (runtime image : String) (timeout : Binary64) : Run (Option ToolFailure) := do
  match ← Adapter.attempt (Run.command [runtime, "pull", image] timeout false none false) with
  | .ok _ => return none
  | .error (.failure (.tool f)) => if mayPass f then return some f else Run.fail (.tool f)
  | .error reason => throw reason

/-- Pulls an image, with a further attempt after each of the pauses. -/
def attempts (runtime image : String) (timeout : Binary64) : List Rat → Run Unit
  | [] => do
    match ← once runtime image timeout with
    | none => return
    | some f => Run.fail (.pull (.failed image f))
  | seconds :: rest => do
    match ← once runtime image timeout with
    | none => return
    | some _ =>
      Run.pause seconds
      attempts runtime image timeout rest

/-- Makes sure that an image is there: a runtime that knows it has it, any other one pulls it. -/
def ensure (image : String) (runtime : Option String) (timeout : Binary64) : Run Unit := do
  let runtime ←
    match runtime.filter (!·.isEmpty) with
    | some r => pure (some r)
    | none => Tools.runtime?
  match runtime with
  | none => Run.fail (.pull .noRuntime)
  | some runtime =>
    let inspected ←
      Adapter.attempt
        (Run.command [runtime, "inspect", "--type=image", image] timeout false none false)
    match inspected with
    | .ok _ => Run.debug ("Image " ++ image ++ " found locally")
    | .error (.failure (.tool f)) =>
      Run.debug ("Image " ++ image ++ " not found locally: " ++ f.message)
      Run.info ("Pulling image: " ++ image ++ " ...")
      attempts runtime image timeout pauses
    | .error reason => throw reason

def prepare (image : String) (timeout : Binary64) : Run Unit := do
  Analysis.requireValid image
  ensure image none timeout

/-- The images of a list that are valid and there. Without `ignoreErrors` the first one that is not
stops. -/
def ensureAll (timeout : Binary64) (ignoreErrors : Bool) : List String → Run (List String)
  | [] => return []
  | image :: rest => do
    match ← Adapter.attempt (prepare image timeout) with
    | .ok _ => return image :: (← ensureAll timeout ignoreErrors rest)
    | .error (.failure f) =>
      let isSkipped := match f with | .invalidImage _ | .pull _ => true | _ => false
      if isSkipped && ignoreErrors then
        Run.warn ("Skipping analysis of " ++ image ++ ": " ++ f.message)
        ensureAll timeout ignoreErrors rest
      else Run.fail f
    | .error reason => throw reason

end Pull
end ContainerDocs

import ContainerDocs.Tool.Adapter

/-!
# Analyzing images

Every tool that is there is run on the image, and what the tools find is merged in the order in
which they finish. A tool that fails leaves a warning and nothing else.

## Main definitions

* `Analysis.validate` — an image reference that may be handed to tools.
* `Worker`, `Probe` — a tool that can be run, and the search for one.
* `Analysis.analyze` — the statistics of one image.
* `Analysis.compare` — the statistics of several images.
-/

namespace ContainerDocs

structure Worker where
  name : String
  run : String → Run (Option ImageStats)

inductive Probe where
  | available (w : Worker)
  | missing (name : String)

def Adapter.probe (a : Adapter) (watching : Bool) : Run Probe := do
  let (isThere, a) ← a.locate
  if isThere then return .available ⟨a.name, fun image => some <$> a.run image watching⟩
  else return .missing a.name

def Stop.message : Stop → String
  | .failure f => f.message
  | .crash c => c.message
  | .aborted | .interrupted => ""

namespace Analysis

/-- The parts of an image reference that is accepted. -/
def validate (image : String) : Except Failure ImageReference :=
  if (Blank.stripString image).isEmpty then .error (.invalidImage .missing)
  else
    match ImageReference.parse image with
    | .ok r => .ok r
    | .error e => .error (.invalidImage (.malformed image e))

/-- A step that only goes on with an image reference that is accepted. -/
def requireValid (image : String) : Run Unit :=
  match validate image with
  | .ok _ => return
  | .error f => Run.fail f

def available : List (Run Probe) → Run (List Worker)
  | [] => return []
  | probe :: rest => do
    match ← probe with
    | .available w => return w :: (← available rest)
    | .missing name =>
      Run.info (name ++ " is not installed or not in PATH. Skipping.")
      available rest

/-- What came of running a tool. -/
structure Outcome where
  name : String
  result : Except Stop (Option ImageStats)

def runAll (image : String) : List Worker → Run (List Outcome)
  | [] => return []
  | w :: rest => do
    let result ← Adapter.attempt (w.run image)
    return ⟨w.name, result⟩ :: (← runAll image rest)

/-- The elements of a list at the given places; without places, the list itself. -/
def arrange {α : Type} (places : Option (List Nat)) (xs : List α) : List α :=
  match places with
  | none => xs
  | some is => is.filterMap (xs[·]?)

def warning (name : String) (reason : Stop) : String := name ++ " failed: " ++ reason.message

/-- Folds outcomes into statistics. Only an interruption stops. -/
def mergeAll (image : String) (stats : ImageStats) : List Outcome → Run ImageStats
  | [] => return stats
  | o :: rest => do
    match o.result with
    | .error .interrupted => throw .interrupted
    | .error reason =>
      let text := warning o.name reason
      Run.warn ("Analysis warning for " ++ image ++ ": " ++ text)
      mergeAll image { stats with warnings := stats.warnings ++ [text] } rest
    | .ok found =>
      Run.debug (o.name ++ " finished for " ++ image)
      mergeAll image (stats.mergeOption found) rest

/-- The statistics of an image. `watching` tells whether a cancellation counts; `completion` lists
the tools in the order in which they finish. -/
def analyze (image : String) (probes : List (Run Probe)) (watching : Bool)
    (completion : Option (List Nat)) : Run ImageStats := do
  requireValid image
  if watching && (← Run.isCancelled) then Run.fail (.cancelled image)
  let workers ← available probes
  if workers.isEmpty then
    Run.warn ("No analysis tools available for " ++ image)
    return ImageStats.finalize { imageTag := image }
  let outcomes ← runAll image workers
  return (← mergeAll image { imageTag := image } (arrange completion outcomes)).finalize

def standardProbes (timeouts : Timeouts) (watching : Bool) : List (Run Probe) :=
  (Adapter.standard timeouts).map (·.probe watching)

/-- The statistics of an image among several: a failure becomes a warning. -/
def analyzeOne (image : String) (probes : List (Run Probe)) (watching : Bool) :
    Run ImageStats := do
  match ← Adapter.attempt (analyze image probes watching none) with
  | .ok s => return s
  | .error (.failure f) =>
    Run.warn ("Analysis of " ++ image ++ " failed: " ++ f.message)
    return { imageTag := image, warnings := [f.message] }
  | .error reason => throw reason

def compareEach (watching : Bool) :
    List (String × List (Run Probe)) → Run (List (Except Stop ImageStats))
  | [] => return []
  | (image, probes) :: rest => do
    let outcome ← Adapter.attempt (analyzeOne image probes watching)
    return outcome :: (← compareEach watching rest)

def compare (images : List (String × List (Run Probe))) (watching : Bool) :
    Run (List ImageStats) := do
  (← compareEach watching images).mapM Run.ofExcept

/-- Stops in strict mode when the statistics of an image carry a warning. -/
def checkStrict (strict : Bool) (stats : List ImageStats) : Except Failure Unit :=
  if strict then
    match stats.find? (!·.warnings.isEmpty) with
    | some s => .error (.strict s.imageTag s.warnings)
    | none => .ok ()
  else .ok ()

end Analysis
end ContainerDocs

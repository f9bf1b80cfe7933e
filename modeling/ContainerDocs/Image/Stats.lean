import ContainerDocs.Calendar.Timestamp
import ContainerDocs.Number.Format
import ContainerDocs.Text.CodePoint

/-!
# Image statistics

What the analysis of an image knows about it. Each tool contributes a partial result; results are
merged one after another and put into a definite order at the end.

## Main definitions

* `Size.ratio` — a byte count divided by the unit, as a floating point number.
* `Size.megabytes` — the printed form; a count beyond the range of floating point has none.
* `Counts` — how often texts occur.
* `Package`, `Vulnerability`, `ImageStats` — the data.
* `Severity.rank`, `Severity.order` — how severities are ranked and listed.
* `Ordered.distinct` — the distinct elements of a list in increasing order.
* `ImageStats.merge` — the destination with a partial result folded in.
* `ImageStats.finalize` — packages and vulnerabilities in their definite order.
-/

namespace ContainerDocs

/-! ## Sizes

Byte counts are shown in units of 1024 · 1024 bytes with two decimals. -/

namespace Size

/-- A byte count divided by 1024 and by 1024 again, each quotient being rounded. There is no result
when the first quotient is out of range. -/
def ratio (bytes : Int) : Option Binary64 :=
  match Binary64.ofRatio (bytes < 0) bytes.natAbs 1024 with
  | .infinity _ => none
  | x => some (x.divNat 1024)

/-- A number that is too large for a floating point number. -/
inductive SizeError where
  /-- The quotient of a byte count that is to be printed. -/
  | outOfRange
  /-- An integer that is to be used in a product. -/
  | factor
deriving DecidableEq, Repr

def SizeError.message : SizeError → String
  | .outOfRange => "integer division result too large for a float"
  | .factor => "int too large to convert to float"

def megabytes (bytes : Int) : Except SizeError String :=
  match ratio bytes with
  | some x => .ok (Format.fixed 2 x ++ " MB")
  | none => .error .outOfRange

end Size

/-! ## Findings -/

structure Package where
  name : Text
  version : Text := []
deriving DecidableEq, Repr

structure Vulnerability where
  id : Text
  severity : Text := Text.ofString "Unknown"
  package : Text := []
  version : Text := []
deriving DecidableEq, Repr

/-! ## Counts -/

/-- Counts of texts, in the order in which they first came. Each text is counted in one place. -/
structure Counts where
  entries : List (Text × Int)
  nodup : (entries.map (·.1)).Nodup
deriving DecidableEq

namespace Counts

def empty : Counts := ⟨[], List.nodup_nil⟩

instance : EmptyCollection Counts := ⟨empty⟩

def keys (counts : Counts) : List Text := counts.entries.map (·.1)

def countIn (entries : List (Text × Int)) (key : Text) : Int :=
  ((entries.find? (·.1 = key)).map (·.2)).getD 0

def get (counts : Counts) (key : Text) : Int := countIn counts.entries key

/-- Entries with `n` more for a key; a key that is not listed comes last. -/
def addTo (key : Text) (n : Int) : List (Text × Int) → List (Text × Int)
  | [] => [(key, n)]
  | (k, m) :: rest => if k = key then (k, m + n) :: rest else (k, m) :: addTo key n rest

theorem mem_keys_addTo {entries : List (Text × Int)} {key k : Text} {n : Int} :
    key ∈ (addTo k n entries).map (·.1) ↔ key = k ∨ key ∈ entries.map (·.1) := by
  induction entries with
  | nil => simp [addTo]
  | cons entry rest ih =>
    obtain ⟨k', n'⟩ := entry
    by_cases hk : k' = k
    · simp [addTo, hk]
    · simp [addTo, hk, ih, or_left_comm]

theorem nodup_addTo {entries : List (Text × Int)} (h : (entries.map (·.1)).Nodup) (key : Text)
    (n : Int) : ((addTo key n entries).map (·.1)).Nodup := by
  induction entries with
  | nil => simp [addTo]
  | cons entry rest ih =>
    obtain ⟨k, m⟩ := entry
    obtain ⟨hnew, hrest⟩ := List.nodup_cons.1 h
    by_cases hk : k = key
    · rwa [addTo, if_pos hk]
    · rw [addTo, if_neg hk]
      refine List.nodup_cons.2 ⟨fun hmem => ?_, ih hrest⟩
      rcases mem_keys_addTo.1 hmem with heq | hmem
      · exact hk heq
      · exact hnew hmem

/-- The counts with `n` more for a key; a key that is not counted comes last. -/
def add (counts : Counts) (key : Text) (n : Int) : Counts :=
  ⟨addTo key n counts.entries, nodup_addTo counts.nodup key n⟩

/-- The counts with those of some entries added. -/
def addEach (counts : Counts) (entries : List (Text × Int)) : Counts :=
  entries.foldl (fun counts (key, n) => counts.add key n) counts

/-- The counts with all those of others added. -/
def addAll (counts more : Counts) : Counts := counts.addEach more.entries

@[simp] theorem addAll_empty (counts : Counts) : counts.addAll empty = counts := rfl

/-- The number of occurrences of each element of a list, in the order in which they first come. -/
def ofList (keys : List Text) : Counts := empty.addEach (keys.map (·, 1))

end Counts

/-! ## Statistics -/

/-- What is known about one image; each field has a value for "nothing known". -/
structure ImageStats where
  imageTag : String := ""
  architecture : Text := []
  os : Text := []
  distribution : Text := []
  sizeBytes : Int := 0
  layers : Int := 0
  /-- The supported platforms, each as `os/architecture`. -/
  platforms : List Text := []
  /-- The share of the image that is not wasted, from 0 to 100. -/
  efficiency : Binary64 := Binary64.zero false
  wastedBytes : Int := 0
  packageCount : Int := 0
  packages : List Package := []
  vulnerabilities : List Vulnerability := []
  /-- The number of vulnerabilities of each severity. -/
  severityCounts : Counts := .empty
  scanned : Option Timestamp := none
  warnings : List String := []
deriving DecidableEq

/-! ## Severities -/

namespace Severity

def order : List String := ["Critical", "High", "Medium", "Low", "Negligible", "Unknown"]

/-- The rank of a severity; one that is not listed ranks as unknown. -/
def rank (severity : Text) : Nat :=
  if severity = Text.ofString "Critical" then 4
  else if severity = Text.ofString "High" then 3
  else if severity = Text.ofString "Medium" then 2
  else if severity = Text.ofString "Low" then 1
  else 0

end Severity

/-! ## Order -/

namespace Ordered

/-- The list with each run of equal neighbours replaced by one of them. -/
def squeeze {α : Type} [DecidableEq α] : List α → List α
  | [] => []
  | [a] => [a]
  | a :: b :: rest => if a = b then squeeze (b :: rest) else a :: squeeze (b :: rest)

def distinct {α : Type} [DecidableEq α] (le : α → α → Bool) (xs : List α) : List α :=
  squeeze (xs.mergeSort le)

end Ordered

/-- The order of packages: by name, then by version. -/
def Package.le (p q : Package) : Bool :=
  if p.name = q.name then Text.le p.version q.version else Text.le p.name q.name

/-- The order of vulnerabilities: the higher rank first, then by identifier. -/
def Vulnerability.le (v w : Vulnerability) : Bool :=
  let a := Severity.rank v.severity
  let b := Severity.rank w.severity
  if a = b then Text.le v.id w.id else b < a

def Package.sorted (ps : List Package) : List Package := Ordered.distinct Package.le ps

/-- The vulnerabilities of a list in order; equal ones keep their places relative to each other. -/
def Vulnerability.sorted (vs : List Vulnerability) : List Vulnerability :=
  vs.mergeSort Vulnerability.le

namespace ImageStats

def sizeText (s : ImageStats) : Except Size.SizeError String := Size.megabytes s.sizeBytes

def wastedText (s : ImageStats) : Except Size.SizeError String := Size.megabytes s.wastedBytes

def vulnerabilityCount (s : ImageStats) (severity : Text) : Int :=
  s.severityCounts.get severity

/-! ## Merging -/

def orKeep {α : Type} (isEmpty : α → Bool) (new old : α) : α := if isEmpty new then old else new

/-- The destination with a partial result folded in. A value that is not empty replaces the old one,
platforms are united, lists are appended and counts are added. -/
def merge (dest src : ImageStats) : ImageStats where
  imageTag := dest.imageTag
  architecture := orKeep List.isEmpty src.architecture dest.architecture
  os := orKeep List.isEmpty src.os dest.os
  distribution := orKeep List.isEmpty src.distribution dest.distribution
  sizeBytes := orKeep (· == 0) src.sizeBytes dest.sizeBytes
  layers := orKeep (· == 0) src.layers dest.layers
  platforms :=
    if src.platforms.isEmpty then dest.platforms
    else Ordered.distinct Text.le (dest.platforms ++ src.platforms)
  efficiency := orKeep Binary64.isZero src.efficiency dest.efficiency
  wastedBytes := orKeep (· == 0) src.wastedBytes dest.wastedBytes
  packageCount := orKeep (· == 0) src.packageCount dest.packageCount
  packages := dest.packages ++ src.packages
  vulnerabilities := dest.vulnerabilities ++ src.vulnerabilities
  severityCounts := dest.severityCounts.addAll src.severityCounts
  scanned := orKeep Option.isNone src.scanned dest.scanned
  warnings := dest.warnings ++ src.warnings

/-- The destination with a partial result folded in, if there is one. -/
def mergeOption (dest : ImageStats) (src : Option ImageStats) : ImageStats :=
  match src with
  | some s => dest.merge s
  | none => dest

def finalize (s : ImageStats) : ImageStats :=
  { s with
    packages := Package.sorted s.packages
    vulnerabilities := Vulnerability.sorted s.vulnerabilities }

end ImageStats
end ContainerDocs

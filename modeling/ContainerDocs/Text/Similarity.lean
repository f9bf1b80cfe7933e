/-!
# Similar words

How much of two words is the same, and which of several words come close to another one. The
longest part that two words share is looked for first, then what is shared to the left and to the
right of it.

## Main definitions

* `Similarity.longest` — the longest common part of two words.
* `Similarity.shared` — the number of letters that two words share.
* `Similarity.closest` — the words that come close to a word.
-/

namespace ContainerDocs.Similarity

/-- A common part of two words: where it starts in each of them, and its length. -/
structure Part where
  left : Nat
  right : Nat
  length : Nat
deriving DecidableEq, Repr

/-- The number of letters at the front that two words have in common. -/
def common : List Char → List Char → Nat
  | a :: as, b :: bs => if a = b then common as bs + 1 else 0
  | _, _ => 0

/-- The longest common part of two words; of several the one that starts first in the left word, and
then in the right one. -/
def longest (a b : List Char) : Part :=
  let starts := (List.range a.length).flatMap fun i => (List.range b.length).map fun j => (i, j)
  starts.foldl (fun best (i, j) =>
    let n := common (a.drop i) (b.drop j)
    if best.length < n then ⟨i, j, n⟩ else best) ⟨0, 0, 0⟩

/-- The number of letters that two words share, given enough steps. -/
def sharedFrom : Nat → List Char → List Char → Nat
  | 0, _, _ => 0
  | fuel + 1, a, b =>
    let part := longest a b
    if part.length = 0 then 0
    else
      part.length + sharedFrom fuel (a.take part.left) (b.take part.right) +
        sharedFrom fuel (a.drop (part.left + part.length)) (b.drop (part.right + part.length))

def shared (a b : List Char) : Nat := sharedFrom (a.length + 1) a b

/-- The share of two words that is the same, as letters that are shared in both and letters of
both. -/
def share (a b : String) : Nat × Nat :=
  let (a, b) := (a.toList, b.toList)
  (2 * shared a b, a.length + b.length)

/-- Whether three fifths of two words are the same. -/
def isClose (a b : String) : Bool :=
  let (same, all) := share a b
  3 * all ≤ 5 * same

def closest (word : String) (words : List String) : List String :=
  let further (v w : String) : Bool :=
    let (s, n) := share v word
    let (t, m) := share w word
    t * n < s * m || (t * n = s * m && w ≤ v)
  ((words.filter (isClose · word)).mergeSort further).take 3

end ContainerDocs.Similarity

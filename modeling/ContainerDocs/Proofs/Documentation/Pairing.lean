import ContainerDocs.Documentation.MagicComment
import ContainerDocs.Proofs.Text.Blank
import ContainerDocs.Proofs.Text.LetterCase

/-!
# Pairing magic comments with declarations

Taking the first value of each queue in turn gives the item at a place the value at that place of
each tag. Nothing else about the comments matters.

## Main definitions

* `MagicComment.IsMagic` — the form of a magic comment.
* `MagicComment.fragments` — the values of one tag in a comment block.
* `Item.atPlace` — the item at a place of an instruction.

## Main statements

* `MagicComment.fragment?_eq_some_iff` — which lines are magic comments.
* `MagicComment.Queues.deal_eq` — what the queues hold when a declaration has its turn.
* `Documentation.items_by_place` — the items of instructions.
-/

namespace ContainerDocs
namespace MagicComment

/-! ## The form of magic comments -/

/-- The form of a magic comment: number signs, the at sign and the word of the tag, a colon, and a
value on the same line; blanks may stand before the at sign and before the colon. -/
def IsMagic (tag : Tag) (line value : List Char) : Prop :=
  ∃ signs gap gap',
    line = signs ++ gap ++ '@' :: (tag.word.toList ++ gap' ++ ':' :: value) ∧
    signs ≠ [] ∧ (∀ c ∈ signs, c = '#') ∧ (∀ c ∈ gap, Blank.isBlank c = true) ∧
    (∀ c ∈ gap', Blank.isBlank c = true) ∧ '\n' ∉ value

theorem isPrefixOf?_eq_some_iff {word cs rest : List Char} :
    word.isPrefixOf? cs = some rest ↔ cs = word ++ rest := by
  induction word generalizing cs with
  | nil => simp [List.isPrefixOf?, eq_comm]
  | cons c word ih =>
    cases cs with
    | nil => simp [List.isPrefixOf?]
    | cons d cs =>
      by_cases h : c = d
      · simp [List.isPrefixOf?, h, ih]
      · simp [List.isPrefixOf?, h, Ne.symm h]

theorem valueAfter?_eq_some_iff {tag : Tag} {cs value : List Char} :
    valueAfter? tag cs = some value ↔
      ∃ gap, (∀ c ∈ gap, Blank.isBlank c = true) ∧
        cs = tag.word.toList ++ gap ++ ':' :: value := by
  have hv : valueAfter? tag cs = some value ↔
      ∃ rest, tag.word.toList.isPrefixOf? cs = some rest ∧
        Blank.stripLeft rest = ':' :: value := by
    rw [valueAfter?]
    split
    next h => simp [h]
    next rest h =>
      simp only [h, Option.some.injEq, exists_eq_left']
      split
      next hs => simp [hs]
      next hs => simpa using hs value
  have hd : ∀ rest, Blank.stripLeft rest = ':' :: value ↔
      ∃ gap, (∀ c ∈ gap, Blank.isBlank c = true) ∧ rest = gap ++ ':' :: value :=
    fun rest => Blank.dropWhile_eq_cons_iff (by decide)
  rw [hv]
  constructor
  · rintro ⟨rest, hp, hs⟩
    obtain ⟨gap, hg, rfl⟩ := (hd rest).1 hs
    exact ⟨gap, hg, by simpa using isPrefixOf?_eq_some_iff.1 hp⟩
  · rintro ⟨gap, hg, rfl⟩
    exact ⟨gap ++ ':' :: value, isPrefixOf?_eq_some_iff.2 (by simp), (hd _).2 ⟨gap, hg, rfl⟩⟩

/-- No text starts with the words of two tags. -/
theorem tag_unique {tag tag' : Tag} {cs value value' : List Char}
    (h : valueAfter? tag cs = some value) (h' : valueAfter? tag' cs = some value') :
    tag = tag' := by
  obtain ⟨gap, -, hc⟩ := valueAfter?_eq_some_iff.1 h
  obtain ⟨gap', -, hc'⟩ := valueAfter?_eq_some_iff.1 h'
  rw [hc] at hc'
  by_contra hne
  revert hc'
  cases tag <;> cases tag' <;> simp [Tag.word] at hne ⊢

/-- What a tag's word and a colon stand in front of, if it is on one line. -/
def fragmentOf? (body : List Char) (tag : Tag) : Option (Tag × List Char) :=
  match valueAfter? tag body with
  | some value => if value.contains '\n' then none else some (tag, Blank.strip value)
  | none => none

theorem fragmentOf?_eq_some_iff {body : List Char} {tag tag' : Tag} {v : List Char} :
    fragmentOf? body tag' = some (tag, v) ↔
      tag' = tag ∧ ∃ value, valueAfter? tag body = some value ∧ '\n' ∉ value ∧
        v = Blank.strip value := by
  rw [fragmentOf?]
  constructor
  · intro h
    split at h
    next value hv =>
      split_ifs at h with hn
      cases h
      exact ⟨rfl, value, hv, by simpa using hn, rfl⟩
    next => cases h
  · rintro ⟨rfl, value, hv, hn, rfl⟩
    simp [hv, hn]

/-- At most one tag finds a fragment, so the order of the tags does not matter. -/
theorem findSome?_fragmentOf? {body : List Char} {tag : Tag} {v : List Char} :
    Tag.all.findSome? (fragmentOf? body) = some (tag, v) ↔
      fragmentOf? body tag = some (tag, v) := by
  constructor
  · intro h
    obtain ⟨tag', -, ht⟩ := List.exists_of_findSome?_eq_some h
    obtain rfl := (fragmentOf?_eq_some_iff.1 ht).1
    exact ht
  · intro h
    have hn : ∀ t, t ≠ tag → fragmentOf? body t = none := by
      intro t ht
      by_contra hs
      obtain ⟨⟨t', v'⟩, hv'⟩ := Option.ne_none_iff_exists'.1 hs
      obtain ⟨rfl, value', ha', -⟩ := fragmentOf?_eq_some_iff.1 hv'
      obtain ⟨-, value, ha, -⟩ := fragmentOf?_eq_some_iff.1 h
      exact ht (tag_unique ha' ha)
    cases tag <;> simp [Tag.all, List.findSome?, h, hn]

/-- What stands in front of the tag's word. -/
theorem marker_iff {line body : List Char} :
    (∃ rest, line = '#' :: rest ∧
      Blank.stripLeft (rest.dropWhile (· == '#')) = '@' :: body) ↔
    ∃ signs gap, line = signs ++ gap ++ '@' :: body ∧ signs ≠ [] ∧ (∀ c ∈ signs, c = '#') ∧
      ∀ c ∈ gap, Blank.isBlank c = true := by
  have hs : ∀ rest, Blank.stripLeft rest = '@' :: body ↔
      ∃ gap, (∀ c ∈ gap, Blank.isBlank c = true) ∧ rest = gap ++ '@' :: body :=
    fun rest => Blank.dropWhile_eq_cons_iff (by decide)
  constructor
  · rintro ⟨rest, rfl, h⟩
    obtain ⟨gap, hg, hd⟩ := (hs _).1 h
    refine ⟨'#' :: rest.takeWhile (· == '#'), gap, ?_, by simp, ?_, hg⟩
    · rw [List.append_assoc, ← hd, List.cons_append, List.takeWhile_append_dropWhile]
    · intro c hc
      rcases List.mem_cons.1 hc with rfl | hc
      · rfl
      · simpa using List.mem_takeWhile_imp hc
  · rintro ⟨signs, gap, rfl, hne, hsigns, hg⟩
    obtain ⟨c, signs, rfl⟩ := List.exists_cons_of_ne_nil hne
    obtain rfl := hsigns c (by simp)
    have hd : (gap ++ '@' :: body).dropWhile (· == '#') = gap ++ '@' :: body := by
      refine Blank.dropWhile_eq_self fun c hc => ?_
      cases gap with
      | nil =>
        obtain rfl : '@' = c := by simpa using hc
        decide
      | cons d gap =>
        obtain rfl : d = c := by simpa using hc
        by_contra hx
        obtain rfl : d = '#' := by simpa using hx
        exact absurd (hg '#' (by simp)) (by decide)
    refine ⟨signs ++ gap ++ '@' :: body, by simp, (hs _).2 ⟨gap, hg, ?_⟩⟩
    rw [List.append_assoc, List.dropWhile_append_of_pos, hd]
    intro c hc
    simp [hsigns c (by simp [hc])]

/-- A line is a magic comment with a tag and a value exactly if it has that form. -/
theorem fragment?_eq_some_iff {comment : List Char} {tag : Tag} {v : List Char} :
    fragment? comment = some (tag, v) ↔
      ∃ value, IsMagic tag (Blank.strip comment) value ∧ v = Blank.strip value := by
  have hf : fragment? comment = some (tag, v) ↔
      ∃ body, (∃ rest, Blank.strip comment = '#' :: rest ∧
        Blank.stripLeft (rest.dropWhile (· == '#')) = '@' :: body) ∧
        Tag.all.findSome? (fragmentOf? body) = some (tag, v) := by
    rw [fragment?]
    split
    next rest h =>
      split
      next body hb =>
        change Tag.all.findSome? (fragmentOf? body) = some (tag, v) ↔ _
        simp [h, hb]
      next hb => simpa [h] using fun body hs => absurd hs (hb body)
    next h => simpa using fun body rest hs => absurd hs (h rest)
  simp only [hf, marker_iff, findSome?_fragmentOf?, fragmentOf?_eq_some_iff, true_and,
    valueAfter?_eq_some_iff]
  constructor
  · rintro ⟨body, ⟨signs, gap, hl, hne, hs, hg⟩, value, ⟨gap', hg', rfl⟩, hn, rfl⟩
    exact ⟨value, ⟨signs, gap, gap', hl, hne, hs, hg, hg', hn⟩, rfl⟩
  · rintro ⟨value, ⟨signs, gap, gap', hl, hne, hs, hg, hg', hn⟩, rfl⟩
    exact ⟨_, ⟨signs, gap, hl, hne, hs, hg⟩, value, ⟨gap', hg', rfl⟩, hn, rfl⟩

/-! ## Queues -/

/-- The values of a tag in a comment block, in line order. -/
def fragments (tag : Tag) (comments : List String) : List String :=
  comments.filterMap fun comment =>
    match fragment? comment.toList with
    | some (t, value) => if t = tag then some (String.ofList value) else none
    | none => none

def hasTag (tag : Tag) (comment : String) : Bool :=
  (fragment? comment.toList).any (·.1 = tag)

namespace Queues

theorem read_eq (q : Queues) (comment : String) (tag : Tag) :
    q.read comment tag = q tag ++ fragments tag [comment] := by
  rw [read, fragments]
  cases h : fragment? comment.toList with
  | none => simp [h]
  | some f =>
    obtain ⟨t, value⟩ := f
    by_cases ht : t = tag
    · simp [h, ht, push]
    · simp [h, ht, push, Ne.symm ht]

/-- The queue of a tag holds the values of the tag. -/
theorem ofComments_eq (comments : List String) (tag : Tag) :
    ofComments comments tag = fragments tag comments := by
  have hf : ∀ q : Queues, comments.foldl read q tag = q tag ++ fragments tag comments := by
    induction comments with
    | nil => simp [fragments]
    | cons comment comments ih =>
      intro q
      have hc : fragments tag (comment :: comments) =
          fragments tag [comment] ++ fragments tag comments :=
        List.filterMap_append (l := [comment])
      rw [List.foldl_cons, ih, read_eq, hc, List.append_assoc]
  rw [ofComments, hf, List.nil_append]

/-- When the declaration at a place has its turn, each queue has lost as many values. -/
theorem deal_eq (q : Queues) (ds : List Declaration) :
    q.deal ds = ds.mapIdx fun place d => (d, fun tag => (q tag).drop place) := by
  induction ds generalizing q with
  | nil => rfl
  | cons d ds ih => simp [deal, ih, List.mapIdx_cons, next]

end Queues

/-- The values of a tag depend on the lines with the tag and on nothing else. -/
theorem fragments_filter (tag : Tag) (comments : List String) :
    fragments tag (comments.filter (hasTag tag)) = fragments tag comments := by
  rw [fragments, List.filterMap_filter]
  refine List.filterMap_congr fun comment _ => ?_
  cases h : fragment? comment.toList with
  | none => simp
  | some f => by_cases ht : f.1 = tag <;> simp [hasTag, h, ht]

theorem isRequired_eq (value : Option String) :
    isRequired value =
      decide (∃ v ∈ value, LetterCase.lowerString (Blank.stripString v) = "true") := by
  cases value with
  | none => simp [isRequired]
  | some v =>
    have hw : ∀ c ∈ "true".toList, c.toNat < 128 ∧ c ≠ 'k' := by simp
    have hs : (Blank.stripString v).toList = Blank.strip v.toList := String.toList_ofList
    rw [Bool.eq_iff_iff, isRequired, beq_iff_eq, decide_eq_true_iff, ← hs,
      ← LetterCase.lowerString_eq_iff hw]
    simp

end MagicComment

open MagicComment

/-! ## Items -/

/-- The item at a place of an instruction: its name, its description and its value are those of the
tags at the place, if there are any. -/
def Item.atPlace (i : Instruction) (place : Nat) (d : Declaration) : Item where
  name := (fragments .name i.comments)[place]?.getD d.key
  kind := i.kind
  description := (fragments .description i.comments)[place]?.getD ""
  value :=
    (fragments .default i.comments)[place]?.getD
      (if i.kind = .expose then d.key else d.value.getD "")
  required :=
    decide (∃ v ∈ (fragments .required i.comments)[place]?,
      LetterCase.lowerString (Blank.stripString v) = "true")

theorem Item.ofInstruction_eq (i : Instruction) :
    Item.ofInstruction i = i.declarations.mapIdx (Item.atPlace i) := by
  rw [Item.ofInstruction, Queues.deal_eq]
  refine List.ext_getElem? fun place => ?_
  rw [List.getElem?_map, List.getElem?_mapIdx, List.getElem?_mapIdx, Option.map_map]
  refine congrArg (Option.map · _) (funext fun d => ?_)
  simp [Item.ofDeclaration, Item.atPlace, Queues.ofComments_eq, isRequired_eq]

/-- Comment blocks with the same lines of each tag give the same items. -/
theorem Item.ofInstruction_congr {i : Instruction} {comments : List String}
    (h : ∀ tag, comments.filter (hasTag tag) = i.comments.filter (hasTag tag)) :
    Item.ofInstruction { i with comments := comments } = Item.ofInstruction i := by
  have hf : ∀ tag, fragments tag comments = fragments tag i.comments := by
    intro tag
    rw [← fragments_filter, h, fragments_filter]
  have hp : Item.atPlace { i with comments := comments } = Item.atPlace i := by
    funext place d
    simp [Item.atPlace, hf]
  rw [Item.ofInstruction_eq, Item.ofInstruction_eq, hp]

theorem Documentation.items_append (before after : List Instruction) (i : Instruction) :
    (ofInstructions (before ++ i :: after)).items =
      (ofInstructions before).items ++ Item.ofInstruction i ++ (ofInstructions after).items := by
  simp [ofInstructions]

/-- The items of instructions are those of their declarations in order, and the comments matter for
the values of each tag only: neither prose, nor the order of lines with different tags, nor the
comments of another instruction change an item. -/
theorem Documentation.items_by_place :
    (∀ comment tag v, fragment? comment = some (tag, v) ↔
      ∃ value, IsMagic tag (Blank.strip comment) value ∧ v = Blank.strip value) ∧
    (∀ is, (ofInstructions is).items =
      is.flatMap fun i => i.declarations.mapIdx (Item.atPlace i)) ∧
    (∀ before after (i : Instruction) comments,
      (∀ tag, comments.filter (hasTag tag) = i.comments.filter (hasTag tag)) →
      ofInstructions (before ++ { i with comments := comments } :: after) =
        ofInstructions (before ++ i :: after)) ∧
    (∀ before after (i : Instruction) top prose bottom,
      i.comments = top ++ bottom → (∀ line ∈ prose, fragment? line.toList = none) →
      ofInstructions (before ++ { i with comments := top ++ prose ++ bottom } :: after) =
        ofInstructions (before ++ i :: after)) ∧
    ∀ before after (i : Instruction) comments,
      (ofInstructions (before ++ { i with comments := comments } :: after)).items =
        (ofInstructions before).items ++
          Item.ofInstruction { i with comments := comments } ++ (ofInstructions after).items := by
  have hc : ∀ before after (i : Instruction) comments,
      (∀ tag, comments.filter (hasTag tag) = i.comments.filter (hasTag tag)) →
      ofInstructions (before ++ { i with comments := comments } :: after) =
        ofInstructions (before ++ i :: after) := by
    intro before after i comments h
    refine congrArg Documentation.mk ?_
    simp only [List.flatMap_append, List.flatMap_cons, Item.ofInstruction_congr h]
  refine ⟨fun comment tag v => fragment?_eq_some_iff, fun is => ?_, hc, ?_, ?_⟩
  · have hi : Item.ofInstruction = fun i => i.declarations.mapIdx (Item.atPlace i) :=
      funext Item.ofInstruction_eq
    rw [ofInstructions, hi]
  · intro before after i top prose bottom hi hp
    refine hc before after i _ fun tag => ?_
    have hn : prose.filter (hasTag tag) = [] :=
      List.filter_eq_nil_iff.2 fun line hl => by simp [hasTag, hp line hl]
    simp [hi, hn]
  · intro before after i comments
    exact items_append before after _

/-- Two variables whose comments are moved about and interrupted by prose. -/
theorem Documentation.items_by_place_two :
    let i : Instruction := {
      kind := .env
      declarations := [⟨"A", some "1"⟩, ⟨"B", some "2"⟩]
      comments := ["# @description: first", "# @default:", "# @description: second"] }
    let moved := ["# @default:", "# @description: first", "# @description: second"]
    let prose := ["# @description: first", "# see below", "# @default:", "# @description: second"]
    (ofInstructions [i]).items =
        [⟨"A", .env, "first", "", false⟩, ⟨"B", .env, "second", "2", false⟩] ∧
      ofInstructions [{ i with comments := moved }] = ofInstructions [i] ∧
      ofInstructions [{ i with comments := prose }] = ofInstructions [i] := by
  intro i moved prose
  obtain ⟨-, hi, hc, hp, -⟩ := items_by_place
  refine ⟨?_, hc [] [] i moved fun tag => ?_, hp [] [] i (i.comments.take 1) ["# see below"]
    (i.comments.drop 1) (List.take_append_drop 1 i.comments).symm (by decide)⟩
  · rw [hi]
    decide
  · cases tag <;> decide

end ContainerDocs

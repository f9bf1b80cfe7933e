import ContainerDocs.Analysis.Basic
import ContainerDocs.Proofs.Image.Printing

/-!
# Registries of accepted references

The path, the tag and the digest of an accepted reference are checked character by character, but
the first part of a path is taken for a registry as soon as it has a dot or a colon. So an accepted
text starts with a letter or digit unless it names a registry of its own, of which nothing is known
but that it has no blank and no slash.

## Main definitions

* `ImageReference.addressPattern` — the addresses of registries, a host and perhaps a port.
* `ImageReference.StartsAlphanumeric` — texts that start with an ASCII letter or digit.

## Main statements

* `ImageReference.validate_registry` — what is known of an accepted text and its registry.
* `ImageReference.validate_accepts_option` — an accepted text that looks like an option.
-/

namespace ContainerDocs
namespace ImageReference

open scoped Computability

variable {s : String} {r : ImageReference} {cs path : List Char}

/-! ## Addresses -/

def isHostChar (c : Char) : Bool := isAsciiAlphanumeric c || c == '-' || c == '.'

def isPortChar (c : Char) : Bool := '0' ≤ c && c ≤ '9'

/-- Hosts: a letter or digit, and letters, digits, hyphens and dots after it. -/
def hostPattern : Language Char := one isAsciiAlphanumeric * (one isHostChar)∗

/-- Ports: one digit or more. -/
def portPattern : Language Char := one isPortChar * (one isPortChar)∗

/-- Addresses of registries: a host, and perhaps a colon and a port. -/
def addressPattern : Language Char := hostPattern * (1 + only ':' * portPattern)

def StartsAlphanumeric (cs : List Char) : Prop :=
  ∃ c rest, cs = c :: rest ∧ isAsciiAlphanumeric c = true

theorem StartsAlphanumeric.append (h : StartsAlphanumeric cs) (ds : List Char) :
    StartsAlphanumeric (cs ++ ds) := by
  obtain ⟨c, rest, rfl, hc⟩ := h
  exact ⟨c, rest ++ ds, rfl, hc⟩

/-- What has to start with a letter or digit does so. -/
theorem startsAlphanumeric_of_mem {p : Char → Bool} {L : Language Char}
    (hp : ∀ c, p c = true → isAsciiAlphanumeric c = true) (h : cs ∈ one p * L) :
    StartsAlphanumeric cs := by
  cases cs with
  | nil => exact absurd h nil_notMem_one_mul
  | cons c rest => exact ⟨c, rest, rfl, hp c (cons_mem_one_mul.1 h).1⟩

theorem startsAlphanumeric_of_address (h : cs ∈ addressPattern) : StartsAlphanumeric cs := by
  unfold addressPattern hostPattern at h
  rw [mul_assoc] at h
  exact startsAlphanumeric_of_mem (fun _ hc => hc) h

theorem startsAlphanumeric_of_component (h : cs ∈ componentPattern) : StartsAlphanumeric cs := by
  unfold componentPattern runPattern at h
  rw [mul_assoc] at h
  refine startsAlphanumeric_of_mem (fun c hc => ?_) h
  simp only [isComponentChar, Bool.or_eq_true] at hc
  simp only [isAsciiAlphanumeric, isAsciiLetter, Bool.or_eq_true]
  tauto

/-- A path of components starts like its first component. -/
theorem startsAlphanumeric_of_pieces (h : ∀ part ∈ pieces path, part ∈ componentPattern) :
    StartsAlphanumeric path := by
  rw [← intercalate_pieces path]
  cases hpieces : pieces path with
  | nil => exact absurd hpieces (Blank.splitOn_ne_nil path)
  | cons part rest =>
    have hpart : part ∈ componentPattern := h part (by simp [hpieces])
    cases rest with
    | nil => simpa using startsAlphanumeric_of_component hpart
    | cons part' rest =>
      rw [List.intercalate_cons_cons, List.append_assoc]
      exact (startsAlphanumeric_of_component hpart).append _

/-! ## Accepted references -/

theorem plain_iff_all : Plain cs ↔ cs.all (!Blank.isBlank ·) = true := by
  simp [Plain]

theorem parse_of_validate (h : Analysis.validate s = .ok r) : parse s = .ok r := by
  unfold Analysis.validate at h
  split_ifs at h
  cases hparse : parse s with
  | error e => simp [hparse] at h
  | ok r' => simpa [hparse] using h

theorem validate_of_parse (h : parse s = .ok r) : Analysis.validate s = .ok r := by
  have hempty : (Blank.stripString s).isEmpty = false := by
    unfold parse at h
    split_ifs at h with hblank
    simpa [Blank.stripString, String.isEmpty_iff] using hblank
  simp [Analysis.validate, hempty, h]

/-- An accepted text names no registry and starts with a letter or digit, or it names a registry and
what follows the slash behind it starts so. -/
theorem registry_cases (h : parse s = .ok r) :
    (r.registry = "docker.io" ∧ StartsAlphanumeric s.toList) ∨
      ∃ rest, s.toList = r.registry.toList ++ '/' :: rest ∧ StartsAlphanumeric rest := by
  obtain ⟨hplain, f, htext⟩ := exists_text_of_parse h
  have hreads : f.Reads r := (parse_grammar s).2.1 r h f htext
  have hcomponents := (wellFormed_of_parse h).component_mem
  rw [← htext, Form.text, List.append_assoc]
  by_cases hnamed : ∃ first rest, f.path = first ++ '/' :: rest ∧ '/' ∉ first ∧ IsRegistry first
  · obtain ⟨first, rest, hpath, hslash, hregistry⟩ := hnamed
    obtain ⟨hfirst, hrest⟩ := hreads.qualified first rest hpath hslash hregistry
    rw [hrest] at hcomponents
    refine .inr ⟨rest ++ (marked ':' f.tag ++ marked '@' f.digest), ?_,
      (startsAlphanumeric_of_pieces hcomponents).append _⟩
    simp [hfirst, hpath]
  · obtain ⟨hdefault, hrepository⟩ := hreads.unqualified fun first rest hpath hslash hregistry =>
      hnamed ⟨first, rest, hpath, hslash, hregistry⟩
    refine .inl ⟨hdefault, (startsAlphanumeric_of_pieces fun part hpart => ?_).append _⟩
    refine hcomponents part ?_
    rw [hrepository]
    split_ifs
    · exact hpart
    · have hlibrary : pieces ("library/".toList ++ f.path) = "library".toList :: pieces f.path :=
        pieces_append_cons (by decide : '/' ∉ "library".toList)
      rw [hlibrary]
      exact List.mem_cons_of_mem _ hpart

def Form.withRegistry (f : Form) (registry : List Char) (hregistry : IsRegistry registry)
    (hslash : '/' ∉ registry) (hat : '@' ∈ registry → f.digest ≠ none) : Form where
  registry := some registry
  components := f.components
  tag := f.tag
  digest := f.digest
  components_ne_nil := f.components_ne_nil
  component_mem := f.component_mem
  tag_mem := f.tag_mem
  digest_mem := f.digest_mem
  registry_ne_nil := by simpa using hregistry.ne_nil
  slash_notMem := by simpa using hslash
  isRegistry := by simpa using hregistry
  at_notMem := by simpa using hat

/-- A text without slash and blank that has a dot or a colon is taken for a registry, whatever its
characters are. -/
theorem exists_parse_of_registry {f : Form} {registry : List Char} (hnone : f.registry = none)
    (htext : Plain f.text) (hregistry : IsRegistry registry) (hslash : '/' ∉ registry)
    (hplain : Plain registry) (hat : '@' ∈ registry → f.digest ≠ none) :
    ∃ r, parse (String.ofList (registry ++ '/' :: f.text)) = .ok r ∧
      r.registry = String.ofList registry := by
  let f' := f.withRegistry registry hregistry hslash hat
  have hpath : f'.path = registry ++ '/' :: f.path := by
    rw [Form.path_of_registry rfl, Form.path, Form.parts, hnone]
    rfl
  have htext' : f'.text = registry ++ '/' :: f.text := by
    rw [Form.text, hpath]
    simp [Form.text, f', Form.withRegistry]
  have hslashPlain : Blank.isBlank '/' = false := by decide
  obtain ⟨r, hr, hreads⟩ := exists_parse_of_text (f := f')
    (s := String.ofList (registry ++ '/' :: f.text)) (by simp [hplain, htext, hslashPlain])
    (by rw [htext', String.toList_ofList])
  refine ⟨r, hr, ?_⟩
  rw [← (hreads.qualified registry f.path hpath hslash hregistry).1, String.ofList_toList]

/-- What is accepted: a text without a registry, which starts with a letter or digit, or one with
any registry. So it starts with a letter or digit and has the address of a registry exactly if its
registry is such an address. -/
theorem validate_registry (s : String) (registry : List Char) (f : Form) :
    (∀ r, Analysis.validate s = .ok r →
      (r.registry = "docker.io" ∧ StartsAlphanumeric s.toList ∨
        IsRegistry r.registry.toList ∧ '/' ∉ r.registry.toList ∧ Plain r.registry.toList ∧
          ∃ rest, s.toList = r.registry.toList ++ '/' :: rest ∧ StartsAlphanumeric rest) ∧
      (StartsAlphanumeric s.toList ∧ r.registry.toList ∈ addressPattern ↔
        r.registry.toList ∈ addressPattern)) ∧
    (IsRegistry registry → '/' ∉ registry → Plain registry →
      f.registry = none → Plain f.text → ('@' ∈ registry → f.digest ≠ none) →
      ∃ r, Analysis.validate (String.ofList (registry ++ '/' :: f.text)) = .ok r ∧
        r.registry = String.ofList registry) := by
  constructor
  · intro r h
    have hparse := parse_of_validate h
    have hwell := wellFormed_of_parse hparse
    obtain ⟨hdefault, hstart⟩ | ⟨rest, htext, hrest⟩ := registry_cases hparse
    · exact ⟨.inl ⟨hdefault, hstart⟩, and_iff_right hstart⟩
    · refine ⟨.inr ⟨hwell.isRegistry, hwell.slash_notMem, hwell.plain_registry, rest, htext, hrest⟩,
        and_iff_right_of_imp fun haddress => ?_⟩
      rw [htext]
      exact (startsAlphanumeric_of_address haddress).append _
  · intro hregistry hslash hplain hnone htext hat
    obtain ⟨r, hr, hname⟩ := exists_parse_of_registry hnone htext hregistry hslash hplain hat
    exact ⟨r, validate_of_parse hr, hname⟩

/-- The written form `app:v1`. -/
def appForm : Form where
  registry := none
  components := ["app".toList]
  tag := some "v1".toList
  digest := none
  components_ne_nil := by simp
  component_mem := by simpa using isComponent_iff.1 (by decide)
  tag_mem := by simpa using isTag_iff.1 (by decide)
  digest_mem := by simp
  registry_ne_nil := by simp
  slash_notMem := by simp
  isRegistry := by simp
  at_notMem := by simp

/-- A registry with a port is an address, and one that starts with a hyphen is accepted too. -/
theorem validate_registry_of_port :
    (∃ r, Analysis.validate "localhost:5000/app:v1" = .ok r ∧ r.registry = "localhost:5000" ∧
      StartsAlphanumeric "localhost:5000/app:v1".toList) ∧
    ∃ r, Analysis.validate (String.ofList ("-h.".toList ++ '/' :: appForm.text)) = .ok r ∧
      r.registry = "-h." := by
  obtain ⟨hknown, hany⟩ := validate_registry "localhost:5000/app:v1" "-h.".toList appForm
  constructor
  · let r : ImageReference := ⟨"localhost:5000", "app", some "v1", none⟩
    have hvalid : Analysis.validate "localhost:5000/app:v1" = .ok r := by decide
    have haddress : r.registry.toList ∈ addressPattern :=
      ⟨"localhost".toList, cons_mem_one_mul.2 ⟨by decide, mem_kstar_one.2 (List.all_eq_true.1 rfl)⟩,
        ":5000".toList, .inr (cons_mem_only_mul.2
          ⟨rfl, cons_mem_one_mul.2 ⟨by decide, mem_kstar_one.2 (List.all_eq_true.1 rfl)⟩⟩),
        by decide⟩
    exact ⟨r, hvalid, rfl, ((hknown r hvalid).2.2 haddress).1⟩
  · exact hany (.inl (by decide)) (by decide) (plain_iff_all.2 (by decide)) rfl
      (plain_iff_all.2 (by decide)) (fun h => absurd h (by decide))

/-- A text that a tool takes for an option is accepted: its first part has a dot, so it counts as a
registry. -/
theorem validate_accepts_option : ¬ ∀ s r, Analysis.validate s = .ok r →
    StartsAlphanumeric s.toList ∧ r.registry.toList ∈ addressPattern := by
  intro hall
  have hvalid : Analysis.validate "--config=evil.d/app" =
      .ok ⟨"--config=evil.d", "app", some "latest", none⟩ := by decide
  obtain ⟨c, rest, htext, hc⟩ := (hall _ _ hvalid).1
  obtain rfl : '-' = c := (List.cons.inj htext).1
  exact absurd hc (by decide)

end ImageReference
end ContainerDocs

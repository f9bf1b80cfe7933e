import ContainerDocs.Yaml.BlockText
import ContainerDocs.Yaml.Property
import ContainerDocs.Yaml.QuotedText
import Mathlib.Data.List.Infix
import Mathlib.Data.List.TakeWhile

/-!
# How the readers of single tokens fail

A reader of a token refuses a text that breaks the rules of the format. Only two of them can fail in
another way: a text in double quotes, which may name a character beyond the last one, and a version,
whose numbers may have more digits than are read.

## Main definitions

* `Gives` — what is known of a result and of a fault.
* `FarEscape`, `LongVersion` — a text with an escape or a version that cannot be read.

## Main statements

* `Gives.bind` — a reader after another one.
* `QuotedText.gives_double`, `Property.gives_directive` — the readers that do not only refuse.
-/

namespace ContainerDocs.Yaml

open Character

/-! ## Results and faults -/

/-- Whether a fault is a breach of the rules of the format. -/
def Fault.IsProblem (f : Fault) : Prop := ∃ p, f = .malformed p

instance : DecidablePred Fault.IsProblem
  | .malformed p => .isTrue ⟨p, rfl⟩
  | .value _ => .isFalse (by rintro ⟨p, ⟨⟩⟩)
  | .outOfRange => .isFalse (by rintro ⟨p, ⟨⟩⟩)
  | .mappingAsMoment => .isFalse (by rintro ⟨p, ⟨⟩⟩)
  | .tooDeep => .isFalse (by rintro ⟨p, ⟨⟩⟩)

/-- A reading whose result satisfies `Q`, if there is one, and whose fault satisfies `P`. -/
def Gives {α : Type} (P : Fault → Prop) (Q : α → Prop) : Except Fault α → Prop
  | .ok a => Q a
  | .error f => P f

/-- A reading that fails only where a text breaks the rules of the format. -/
abbrev Refuses {α : Type} (x : Except Fault α) : Prop := Gives Fault.IsProblem (fun _ => True) x

namespace Gives

variable {α β : Type} {P P' : Fault → Prop} {Q Q' : α → Prop} {R : β → Prop} {x : Except Fault α}

theorem mono (h : Gives P Q x) (hP : ∀ f, P f → P' f) (hQ : ∀ a, Q a → Q' a) : Gives P' Q' x := by
  cases x with
  | ok a => exact hQ a h
  | error f => exact hP f h

theorem bind {g : α → Except Fault β} (h : Gives P Q x) (hg : ∀ a, Q a → Gives P R (g a)) :
    Gives P R (x >>= g) := by
  cases x with
  | ok a => exact hg a h
  | error f => exact h

theorem map {g : α → β} (h : Gives P Q x) (hg : ∀ a, Q a → R (g a)) : Gives P R (x.map g) := by
  cases x with
  | ok a => exact hg a h
  | error f => exact h

theorem ok_of_eq {a : α} (h : Gives P Q x) (hx : x = .ok a) : Q a := by rwa [hx] at h

theorem error_of_eq {f : Fault} (h : Gives P Q x) (hx : x = .error f) : P f := by rwa [hx] at h

theorem ite {c : Prop} [Decidable c] {y : Except Fault α} (hx : c → Gives P Q x)
    (hy : ¬c → Gives P Q y) : Gives P Q (if c then x else y) := by
  split_ifs with h
  · exact hx h
  · exact hy h

/-- What is only refused may be refused in wider terms. -/
theorem of_refuses (h : Refuses x) (hP : ∀ f, f.IsProblem → P f) : Gives P (fun _ => True) x :=
  h.mono hP fun _ => id

end Gives

theorem refuses_malformed {α : Type} (p : Problem) :
    Refuses (.error (.malformed p) : Except Fault α) := ⟨p, rfl⟩

/-! ## Escapes -/

/-- A text holds an escape for a character beyond the last one. -/
def FarEscape (cs : List Char) (f : Fault) : Prop :=
  ∃ ds n, '\\' :: 'U' :: ds <:+: cs ∧ ds.length = 8 ∧ hexValue? ds = some n ∧ 0x110000 ≤ n ∧
    f = .value (if n < Nat.pow 2 31 then .noCharacter else .characterOverflow)

theorem FarEscape.mono {cs cs' : List Char} {f : Fault} (h : FarEscape cs f) (hcs : cs <:+: cs') :
    FarEscape cs' f := by
  obtain ⟨ds, n, hds, rest⟩ := h
  exact ⟨ds, n, hds.trans hcs, rest⟩

namespace QuotedText

theorem refuses_singlePieces (cs : List Char) : Refuses (singlePieces cs) := by
  fun_induction singlePieces cs with
  | case1 => exact ⟨_, rfl⟩
  | case2 rest ih => exact ih.bind fun _ _ => trivial
  | case3 => trivial
  | case4 => exact ⟨_, rfl⟩
  | case5 c rest _ _ _ ih => exact ih.bind fun _ _ => trivial

theorem refuses_single (cs : List Char) : Refuses (single cs) :=
  (refuses_singlePieces cs).map fun _ _ => trivial

theorem hexDigit?_lt {c : Char} {d : Nat} (h : hexDigit? c = some d) : d < 16 := by
  rw [hexDigit?] at h
  split_ifs at h with hdigit hsmall hlarge <;> cases h
  · have hle : c.toNat ≤ '9'.toNat := hdigit.2
    have hlast : '9'.toNat = 57 := rfl
    have hfirst : '0'.toNat = 48 := rfl
    omega
  · have hle : c.toNat ≤ 'f'.toNat := hsmall.2
    have hlast : 'f'.toNat = 102 := rfl
    have hfirst : 'a'.toNat = 97 := rfl
    omega
  · have hle : c.toNat ≤ 'F'.toNat := hlarge.2
    have hlast : 'F'.toNat = 70 := rfl
    have hfirst : 'A'.toNat = 65 := rfl
    omega

/-- The value of hexadecimal digits is bounded by their number. -/
theorem hexValue?_lt {ds : List Char} {n : Nat} (h : hexValue? ds = some n) :
    n < Nat.pow 16 ds.length := by
  have hfrom : ∀ (ds : List Char) (k n : Nat),
      ds.foldlM (fun n c => (hexDigit? c).map fun d => n * 16 + d) k = some n →
        n < (k + 1) * Nat.pow 16 ds.length := by
    intro ds
    induction ds with
    | nil =>
      intro k n h
      cases h
      simp
    | cons c ds ih =>
      intro k n h
      rw [List.foldlM_cons, Option.bind_eq_bind, Option.bind_eq_some_iff] at h
      obtain ⟨m, hm, hn⟩ := h
      obtain ⟨d, hd, rfl⟩ := Option.map_eq_some_iff.1 hm
      have hdigit := hexDigit?_lt hd
      have hlt := ih _ _ hn
      have hle : k * 16 + d + 1 ≤ (k + 1) * 16 := by omega
      calc n < (k * 16 + d + 1) * Nat.pow 16 ds.length := hlt
        _ ≤ (k + 1) * 16 * Nat.pow 16 ds.length := Nat.mul_le_mul_right _ hle
        _ = (k + 1) * Nat.pow 16 (c :: ds).length := by
          rw [List.length_cons, Nat.pow_eq, Nat.pow_eq, Nat.pow_succ', Nat.mul_assoc]
  have hlt := hfrom ds 0 n h
  omega

theorem isSome_hexDigit? {ds : List Char} {n : Nat} (h : hexValue? ds = some n) :
    ∀ c ∈ ds, (hexDigit? c).isSome := by
  have hfrom : ∀ (ds : List Char) (k n : Nat),
      ds.foldlM (fun n c => (hexDigit? c).map fun d => n * 16 + d) k = some n →
        ∀ c ∈ ds, (hexDigit? c).isSome := by
    intro ds
    induction ds with
    | nil => intro k n _ c hc; cases hc
    | cons c ds ih =>
      intro k n h d hd
      rw [List.foldlM_cons, Option.bind_eq_bind, Option.bind_eq_some_iff] at h
      obtain ⟨m, hm, hn⟩ := h
      obtain ⟨value, hvalue, rfl⟩ := Option.map_eq_some_iff.1 hm
      rcases List.mem_cons.1 hd with rfl | hd
      · exact Option.isSome_of_eq_some hvalue
      · exact ih _ _ hn d hd
  exact hfrom ds 0 n h

theorem refuses_coded {digits : List Char} (h : digits.length ≤ 4) : Refuses (coded digits) := by
  rw [coded]
  cases hvalue : hexValue? digits with
  | none => exact ⟨_, rfl⟩
  | some n =>
    have hlt : n < Nat.pow 16 4 :=
      (hexValue?_lt hvalue).trans_le (Nat.pow_le_pow_right (by decide) h)
    have hchar : n < 0x110000 := hlt.trans (by decide)
    dsimp only
    rw [codePoint, dif_pos hchar]
    trivial

theorem gives_coded {digits : List Char} (h : digits.length = 8) :
    Gives (fun f => f.IsProblem ∨ FarEscape ('\\' :: 'U' :: digits) f) (fun _ => True)
      (coded digits) := by
  rw [coded]
  cases hvalue : hexValue? digits with
  | none => exact .inl ⟨_, rfl⟩
  | some n =>
    dsimp only
    rw [codePoint]
    by_cases hchar : n < 0x110000
    · rw [dif_pos hchar]
      trivial
    · rw [dif_neg hchar]
      exact .inr ⟨digits, n, List.infix_rfl, h, hvalue, Nat.le_of_not_lt hchar, rfl⟩

/-- A fault of the rest of a text is one of the whole text. -/
theorem gives_of_rest {α : Type} {x : Except Fault α} {rest : List Char} (front : List Char)
    (h : Gives (fun f => f.IsProblem ∨ FarEscape rest f) (fun _ => True) x) :
    Gives (fun f => f.IsProblem ∨ FarEscape (front ++ rest) f) (fun _ => True) x :=
  h.mono (fun _ => Or.imp_right fun h => h.mono (List.suffix_append _ _).isInfix) fun _ => id

/-- A text in double quotes is refused, unless it has an escape for a character beyond the last
one. -/
theorem gives_doublePieces (cs : List Char) :
    Gives (fun f => f.IsProblem ∨ FarEscape cs f) (fun _ => True) (doublePieces cs) := by
  fun_induction doublePieces cs with
  | case1 => exact .inl ⟨_, rfl⟩
  | case2 => trivial
  | case3 a b rest ih =>
    refine ((refuses_coded (by simp)).of_refuses fun _ => Or.inl).bind fun _ _ => ?_
    exact (gives_of_rest ['\\', 'x', a, b] ih).bind fun _ _ => trivial
  | case4 a b c d rest ih =>
    refine ((refuses_coded (by simp)).of_refuses fun _ => Or.inl).bind fun _ _ => ?_
    exact (gives_of_rest ['\\', 'u', a, b, c, d] ih).bind fun _ _ => trivial
  | case5 a b c d e f g h rest ih =>
    have hcoded : Gives (fun fault => fault.IsProblem ∨
        FarEscape (['\\', 'U', a, b, c, d, e, f, g, h] ++ rest) fault) (fun _ => True)
        (coded [a, b, c, d, e, f, g, h]) :=
      (gives_coded rfl).mono (fun _ => Or.imp_right fun h =>
        h.mono (List.prefix_append _ _).isInfix) fun _ => id
    refine hcoded.bind fun _ _ => ?_
    exact (gives_of_rest ['\\', 'U', a, b, c, d, e, f, g, h] ih).bind fun _ _ => trivial
  | case6 => exact .inl ⟨_, rfl⟩
  | case7 c _ _ _ _ _ _ ih => exact (gives_of_rest ['\\', c] ih).bind fun _ _ => trivial
  | case8 c _ _ _ _ _ _ _ ih => exact (gives_of_rest ['\\', c] ih).bind fun _ _ => trivial
  | case9 => exact .inl ⟨_, rfl⟩
  | case10 => exact .inl ⟨_, rfl⟩
  | case11 => exact .inl ⟨_, rfl⟩
  | case12 c _ _ _ _ _ _ _ _ ih => exact (gives_of_rest [c] ih).bind fun _ _ => trivial

theorem gives_double (cs : List Char) :
    Gives (fun f => f.IsProblem ∨ FarEscape cs f) (fun _ => True) (double cs) :=
  (gives_doublePieces cs).map fun _ _ => trivial

end QuotedText

theorem BlockText.refuses_read (folded : Bool) (margin : Nat) (cs : List Char) :
    Refuses (BlockText.read folded margin cs) := by
  rw [BlockText.read]
  split
  split
  · exact refuses_malformed _
  · dsimp only
    split_ifs <;> trivial

/-! ## Names, tags and directives -/

/-- A text starts with a number of more digits than are read, behind spaces, points and other
digits. -/
def LongNumber (cs : List Char) (f : Fault) : Prop :=
  ∃ front ds, front ++ ds <+: cs ∧ (∀ c ∈ front, c = ' ' ∨ c = '.' ∨ c.isDigit = true) ∧
    (∀ c ∈ ds, c.isDigit = true) ∧ maxDigits < ds.length ∧ f = .value (.tooManyDigits ds.length)

theorem LongNumber.append {cs front : List Char} {f : Fault} (h : LongNumber cs f)
    (hfront : ∀ c ∈ front, c = ' ' ∨ c = '.' ∨ c.isDigit = true) :
    LongNumber (front ++ cs) f := by
  obtain ⟨middle, ds, hprefix, hmiddle, hds⟩ := h
  refine ⟨front ++ middle, ds, ?_, ?_, hds⟩
  · rw [List.append_assoc]
    exact (List.prefix_append_right_inj front).2 hprefix
  · intro c hc
    exact (List.mem_append.1 hc).elim (hfront c) (hmiddle c)

/-- A text holds a version with a number of more digits than are read. -/
def LongVersion (cs : List Char) (f : Fault) : Prop :=
  ∃ numbers, "%YAML".toList ++ numbers <:+: cs ∧ LongNumber numbers f

theorem LongVersion.mono {cs cs' : List Char} {f : Fault} (h : LongVersion cs f)
    (hcs : cs <:+: cs') : LongVersion cs' f := by
  obtain ⟨numbers, hnumbers, hlong⟩ := h
  exact ⟨numbers, hnumbers.trans hcs, hlong⟩

namespace Property

theorem refuses_refuse {α : Type} (p : Problem) : Refuses (refuse p : Except Fault α) := ⟨p, rfl⟩

theorem refuses_name (cs : List Char) : Refuses (name cs) := by
  rw [name]
  split_ifs
  · exact refuses_refuse _
  · trivial

theorem refuses_addressBytes (cs : List Char) : Refuses (addressBytes cs) := by
  fun_induction addressBytes cs with
  | case1 => trivial
  | case2 _ _ _ _ _ ih => exact ih.bind fun _ _ => trivial
  | case3 => exact refuses_refuse _
  | case4 _ _ _ _ ih => exact ih.bind fun _ _ => trivial
  | case5 => exact refuses_refuse _
  | case6 => trivial

theorem refuses_address (cs : List Char) : Refuses (address cs) := by
  refine (refuses_addressBytes cs).bind fun _ _ => ?_
  dsimp only
  split_ifs
  · exact refuses_refuse _
  · split
    · trivial
    · exact refuses_refuse _

theorem refuses_handle (cs : List Char) : Refuses (handle cs) := by
  rw [handle.eq_def]
  split
  · dsimp only
    split
    · trivial
    · split_ifs
      · trivial
      · exact refuses_refuse _
  · exact refuses_refuse _

theorem refuses_tag (cs : List Char) : Refuses (tag cs) := by
  have hend : ∀ (t : WrittenTag) (rest : List Char),
      Refuses (if endsItem rest then pure (t, rest) else refuse .illFormedTag) := by
    intro t rest
    split_ifs
    · trivial
    · exact refuses_refuse _
  rw [tag.eq_def]
  dsimp only
  split
  · refine (refuses_address _).bind fun r _ => ?_
    obtain ⟨uri, rest⟩ := r
    cases rest with
    | nil => exact refuses_refuse _
    | cons c rest =>
      split
      · exact hend _ _
      · exact refuses_refuse _
  · split_ifs
    · exact hend _ _
    · refine (refuses_handle _).bind fun _ _ => ?_
      exact (refuses_address _).bind fun _ _ => hend _ _
    · exact (refuses_address _).bind fun _ _ => hend _ _

/-- A number is refused where there is no digit, and not read where there are too many. -/
theorem gives_number (cs : List Char) :
    Gives (fun f => f.IsProblem ∨ LongNumber cs f)
      (fun r => ∃ ds, cs = ds ++ r.2 ∧ ∀ c ∈ ds, c.isDigit = true) (number cs) := by
  have hdigits : ∀ c ∈ cs.takeWhile Char.isDigit, c.isDigit = true :=
    fun c hc => List.mem_takeWhile_imp hc
  rw [number]
  split_ifs with hempty hlong
  · exact .inl ⟨_, rfl⟩
  · exact .inr ⟨[], _, List.takeWhile_prefix _, by simp, hdigits, hlong, rfl⟩
  · exact ⟨_, List.takeWhile_append_dropWhile.symm, hdigits⟩

theorem gives_version (cs : List Char) :
    Gives (fun f => f.IsProblem ∨ LongNumber cs f) (fun _ => True) (version cs) := by
  refine (gives_number cs).bind fun r hr => ?_
  obtain ⟨major, rest⟩ := r
  obtain ⟨ds, rfl, hds⟩ := hr
  dsimp only
  split
  · rename_i after
    have hfront : ∀ c ∈ ds ++ ['.'], c = ' ' ∨ c = '.' ∨ c.isDigit = true := by
      intro c hc
      rcases List.mem_append.1 hc with hc | hc
      · exact .inr (.inr (hds c hc))
      · exact .inr (.inl (List.mem_singleton.1 hc))
    have hlong : ∀ f, LongNumber after f → LongNumber (ds ++ '.' :: after) f := fun f h => by
      simpa using h.append hfront
    have hminor : Gives (fun f => f.IsProblem ∨ LongNumber (ds ++ '.' :: after) f) _
        (number after) :=
      (gives_number after).mono (fun f => Or.imp_right (hlong f)) fun _ => id
    exact hminor.bind fun _ _ => trivial
  · exact .inl ⟨_, rfl⟩

theorem refuses_expansion (cs : List Char) : Refuses (expansion cs) := by
  refine (refuses_handle cs).bind fun _ _ => ?_
  dsimp only
  split_ifs
  · exact refuses_refuse _
  · exact (refuses_address _).bind fun _ _ => trivial

/-- A directive is refused, unless it is a version with a number that is too long. -/
theorem gives_directive (cs : List Char) :
    Gives (fun f => f.IsProblem ∨ LongVersion ('%' :: cs) f) (fun _ => True) (directive cs) := by
  have hend : ∀ (d : Directive) (rest : List Char),
      Refuses (if !endsItem rest then refuse .illFormedDirective
        else
          let rest := skipSpaces rest
          let rest := if rest.head? = some '#' then rest.dropWhile (!isBreak ·) else rest
          if endsLine rest then return (d, rest) else refuse .illFormedDirective) := by
    intro d rest
    dsimp only
    split_ifs
    all_goals first | exact refuses_refuse _ | trivial
  rw [directive]
  dsimp only
  split_ifs with hword hyaml htag
  · exact (refuses_refuse _).of_refuses fun _ => .inl
  · have hversion : Gives (fun f => f.IsProblem ∨ LongVersion ('%' :: cs) f) _
        (version (skipSpaces (cs.dropWhile isName))) := (gives_version _).mono ?_ fun _ => id
    · exact hversion.bind fun _ _ => (hend _ _).of_refuses fun _ => .inl
    · refine fun f => Or.imp_right fun hlong => ⟨cs.dropWhile isName, ?_, ?_⟩
      · have hname : cs.takeWhile isName = "YAML".toList := by
          rw [← hyaml, String.toList_ofList]
        have hcs : '%' :: cs = "%YAML".toList ++ cs.dropWhile isName := by
          calc '%' :: cs = '%' :: (cs.takeWhile isName ++ cs.dropWhile isName) := by
                rw [List.takeWhile_append_dropWhile]
            _ = "%YAML".toList ++ cs.dropWhile isName := by rw [hname]; rfl
        rw [hcs]
      · have hspaces : ∀ c ∈ (cs.dropWhile isName).takeWhile (· = ' '),
            c = ' ' ∨ c = '.' ∨ c.isDigit = true :=
          fun c hc => .inl (by simpa using List.mem_takeWhile_imp hc)
        have hrest : (cs.dropWhile isName).takeWhile (· = ' ') ++
            skipSpaces (cs.dropWhile isName) = cs.dropWhile isName :=
          List.takeWhile_append_dropWhile
        rw [← hrest]
        exact hlong.append hspaces
  · refine ((refuses_expansion _).bind fun _ _ => ?_).of_refuses fun _ => .inl
    exact hend _ _
  · exact (hend _ _).of_refuses fun _ => .inl

end Property
end ContainerDocs.Yaml

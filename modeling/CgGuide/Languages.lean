/-
Languages of words with separators between them, and looking for a word of a language in
a text.

A text that is put together with a separator is read back field by field where the fields
hold none (`field_inj`), and from another beginning only the way `field_cases` says. A
regular expression of the form `w+(sw+)*` describes words with one separator between two.
Mathlib has the Kleene algebra it is written in; here is what its texts look like
(`mem_separated_iff`), letter by letter, which is what proofs about them go by, and what
decides membership. A text that contains a word of a language need not be one: that is the
difference between a search and a match.
-/
import Mathlib.Computability.Language
import Mathlib.Data.List.Infix

set_option autoImplicit false

namespace CgGuide.Languages

open Computability

variable {α : Type*}

/-! ## Texts with a separator -/

section Separator

variable {c : α} {field r s t : List α}

/-- A field without the separator, read from a text that has another beginning: the two
end at one separator, or the other goes on behind it. -/
theorem field_cases (hfield : c ∉ field) (h : field ++ c :: s = r ++ c :: t) :
    r = field ∧ s = t ∨ ∃ r', r = field ++ c :: r' ∧ s = r' ++ c :: t := by
  rcases List.append_eq_append_iff.mp h with ⟨l, rfl, hl⟩ | ⟨l, rfl, hl⟩
  · rcases List.cons_eq_append_iff.mp hl with ⟨rfl, hst⟩ | ⟨r', rfl, hs⟩
    · exact Or.inl ⟨List.append_nil field, (List.cons.inj hst).2.symm⟩
    · exact Or.inr ⟨r', rfl, hs⟩
  · rcases List.cons_eq_append_iff.mp hl with ⟨rfl, hst⟩ | ⟨l', rfl, -⟩
    · exact Or.inl ⟨(List.append_nil r).symm, (List.cons.inj hst).2⟩
    · -- the field would hold the separator
      exact absurd (List.mem_append_right r List.mem_cons_self) hfield

theorem field_inj (hfield : c ∉ field) (hr : c ∉ r) (h : field ++ c :: s = r ++ c :: t) :
    field = r ∧ s = t := by
  rcases field_cases hfield h with ⟨rfl, hst⟩ | ⟨r', rfl, -⟩
  · exact ⟨rfl, hst⟩
  · exact absurd (List.mem_append_right field List.mem_cons_self) hr

end Separator

/-! ## Letters -/

/-- The texts of one letter, of a class of letters. -/
def letter (p : α → Prop) : Language α := {l | ∃ c, p c ∧ l = [c]}

/-- `L+`. -/
def plus (L : Language α) : Language α := L * L∗

theorem mem_letter_mul {p : α → Prop} {L : Language α} {l : List α} :
    l ∈ letter p * L ↔ ∃ c r, p c ∧ r ∈ L ∧ l = c :: r := by
  rw [Language.mem_mul]
  constructor
  · rintro ⟨_, ⟨c, hc, rfl⟩, r, hr, rfl⟩
    exact ⟨c, r, hc, hr, rfl⟩
  · rintro ⟨c, r, hc, hr, rfl⟩
    exact ⟨[c], ⟨c, hc, rfl⟩, r, hr, rfl⟩

/-- Two texts with one letter between them. -/
theorem mem_mul_letter_mul {c : α} {L M : Language α} {l : List α} :
    l ∈ L * (letter (· = c) * M) ↔ ∃ a b, l = a ++ c :: b ∧ a ∈ L ∧ b ∈ M := by
  rw [Language.mem_mul]
  constructor
  · rintro ⟨a, ha, r, hr, rfl⟩
    obtain ⟨_, b, rfl, hb, rfl⟩ := mem_letter_mul.mp hr
    exact ⟨a, b, rfl, ha, hb⟩
  · rintro ⟨a, b, rfl, ha, hb⟩
    exact ⟨a, ha, c :: b, mem_letter_mul.mpr ⟨c, b, rfl, hb, rfl⟩, rfl⟩

/-! ## Words with separators -/

/-- `w+(sw+)*`. -/
def separated (word sep : α → Prop) : Language α :=
  plus (letter word) * (letter sep * plus (letter word))∗

/-- A text of words with separators between them, letter by letter. -/
inductive Separated (word sep : α → Prop) : List α → Prop
  | single {c : α} (hc : word c) : Separated word sep [c]
  | more {c : α} {l : List α} (hc : word c) (hl : Separated word sep l) :
      Separated word sep (c :: l)
  | next {c d : α} {l : List α} (hc : word c) (hd : sep d) (hl : Separated word sep l) :
      Separated word sep (c :: d :: l)

section Separated

variable {word sep : α → Prop} {l : List α}

/-- The first letter of a text, and what can be behind it. -/
theorem separated_eq : separated word sep
    = letter word * (1 + letter sep * separated word sep + separated word sep) := by
  have hplus : (letter word)∗ = 1 + plus (letter word) :=
    (Language.one_add_self_mul_kstar_eq_kstar _).symm
  have hstar : (letter sep * plus (letter word))∗
      = 1 + letter sep * separated word sep := by
    rw [separated, ← mul_assoc]
    exact (Language.one_add_self_mul_kstar_eq_kstar _).symm
  calc separated word sep
      = letter word * ((letter word)∗ * (letter sep * plus (letter word))∗) := by
        rw [separated, plus, mul_assoc]
    _ = letter word * ((letter sep * plus (letter word))∗ + separated word sep) := by
        rw [hplus, add_mul, one_mul, ← separated]
    _ = letter word * (1 + letter sep * separated word sep + separated word sep) := by
        rw [hstar]

theorem mem_separated_cases : l ∈ separated word sep ↔ ∃ c r, word c ∧ l = c :: r
    ∧ (r = [] ∨ (∃ d r', sep d ∧ r' ∈ separated word sep ∧ r = d :: r')
      ∨ r ∈ separated word sep) := by
  nth_rewrite 1 [separated_eq]
  rw [mem_letter_mul]
  simp only [Language.mem_add, Language.mem_one, mem_letter_mul, or_assoc]
  refine exists_congr (fun c => exists_congr (fun r => ?_))
  exact and_congr_right (fun _ => and_comm)

theorem mem_separated_iff : l ∈ separated word sep ↔ Separated word sep l := by
  constructor
  · intro h
    induction hlength : l.length using Nat.strong_induction_on generalizing l with
    | _ n ih =>
      obtain ⟨c, r, hc, rfl, rfl | ⟨d, r', hd, hr', rfl⟩ | hr⟩ := mem_separated_cases.mp h
      · exact .single hc
      · exact .next hc hd (ih r'.length (by simp at hlength; omega) hr' rfl)
      · exact .more hc (ih r.length (by simp at hlength; omega) hr rfl)
  · intro h
    rw [mem_separated_cases]
    induction h with
    | single hc => exact ⟨_, [], hc, rfl, Or.inl rfl⟩
    | more hc _ ih => exact ⟨_, _, hc, rfl, Or.inr (Or.inr (mem_separated_cases.mpr ih))⟩
    | next hc hd _ ih =>
      exact ⟨_, _, hc, rfl, Or.inr (Or.inl ⟨_, _, hd, mem_separated_cases.mpr ih, rfl⟩)⟩

/-- It holds nothing but letters of words and separators. -/
theorem Separated.letters (h : Separated word sep l) : ∀ c ∈ l, word c ∨ sep c := by
  induction h with
  | single hc => simp [hc]
  | more hc _ ih => simpa [hc] using ih
  | next hc hd _ ih => simpa [hc, hd] using ih

theorem Separated.begins (h : Separated word sep l) : ∃ c r, l = c :: r ∧ word c := by
  cases h with
  | single hc => exact ⟨_, _, rfl, hc⟩
  | more hc _ => exact ⟨_, _, rfl, hc⟩
  | next hc _ _ => exact ⟨_, _, rfl, hc⟩

theorem Separated.ends (h : Separated word sep l) : ∃ a c, l = a ++ [c] ∧ word c := by
  induction h with
  | single hc => exact ⟨[], _, rfl, hc⟩
  | more _ _ ih =>
    obtain ⟨a, c, rfl, hc⟩ := ih
    exact ⟨_ :: a, c, rfl, hc⟩
  | next _ _ _ ih =>
    obtain ⟨a, c, rfl, hc⟩ := ih
    exact ⟨_ :: _ :: a, c, rfl, hc⟩

end Separated

/-! ## Looking for a word -/

/-- A word of the language stands in the text. -/
def Contains (L : Language α) (l : List α) : Prop := ∃ t, t <:+: l ∧ t ∈ L

theorem contains_of_mem {L : Language α} {l : List α} (h : l ∈ L) : Contains L l :=
  ⟨l, List.infix_rfl, h⟩

theorem contains_iff {L : Language α} {l : List α} :
    Contains L l ↔ ∃ s ∈ l.tails, ∃ t ∈ s.inits, t ∈ L := by
  unfold Contains
  simp only [List.infix_iff_prefix_suffix, List.mem_tails, List.mem_inits]
  constructor
  · rintro ⟨t, ⟨s, hprefix, hsuffix⟩, ht⟩
    exact ⟨s, hsuffix, t, hprefix, ht⟩
  · rintro ⟨s, hsuffix, t, hprefix, ht⟩
    exact ⟨t, ⟨s, hprefix, hsuffix⟩, ht⟩

/-! ## Deciding -/

theorem mem_mul_iff_split {L M : Language α} {l : List α} :
    l ∈ L * M ↔ ∃ i ∈ List.range (l.length + 1), l.take i ∈ L ∧ l.drop i ∈ M := by
  rw [Language.mem_mul]
  constructor
  · rintro ⟨a, ha, b, hb, rfl⟩
    refine ⟨a.length, ?_, ?_⟩
    · rw [List.mem_range, List.length_append]
      omega
    · rw [List.take_left, List.drop_left]
      exact ⟨ha, hb⟩
  · rintro ⟨i, -, ha, hb⟩
    exact ⟨l.take i, ha, l.drop i, hb, List.take_append_drop i l⟩

theorem mem_letter_iff {p : α → Prop} {l : List α} :
    l ∈ letter p ↔ l.length = 1 ∧ ∀ c ∈ l, p c := by
  constructor
  · rintro ⟨c, hc, rfl⟩
    simp [hc]
  · rintro ⟨hlength, hall⟩
    obtain ⟨c, rfl⟩ := List.length_eq_one_iff.mp hlength
    exact ⟨c, hall c List.mem_cons_self, rfl⟩

/-- Reads words and separators from the front. -/
def isSeparated (word sep : α → Prop) [DecidablePred word] [DecidablePred sep] : List α → Bool
  | [] => false
  | [c] => decide (word c)
  | c :: d :: l =>
    decide (word c)
      && (isSeparated word sep (d :: l) || decide (sep d) && isSeparated word sep l)

theorem isSeparated_iff (word sep : α → Prop) [DecidablePred word] [DecidablePred sep]
    (l : List α) : isSeparated word sep l = true ↔ l ∈ separated word sep := by
  rw [mem_separated_iff]
  induction l using isSeparated.induct with
  | case1 => exact iff_of_false Bool.false_ne_true (fun h => (nomatch h))
  | case2 c =>
    rw [isSeparated, decide_eq_true_iff]
    constructor
    · exact Separated.single
    · intro h
      obtain ⟨d, r, hcons, hd⟩ := h.begins
      rw [(List.cons.inj hcons).1]
      exact hd
  | case3 c d l ih₁ ih₂ =>
    rw [isSeparated, Bool.and_eq_true_iff, Bool.or_eq_true_iff, Bool.and_eq_true_iff, ih₁, ih₂,
      decide_eq_true_iff, decide_eq_true_iff]
    constructor
    · rintro ⟨hc, hl | ⟨hd, hl⟩⟩
      · exact .more hc hl
      · exact .next hc hd hl
    · intro h
      cases h with
      | more hc hl => exact ⟨hc, Or.inl hl⟩
      | next hc hd hl => exact ⟨hc, Or.inr ⟨hd, hl⟩⟩

section Instances

variable {word sep : α → Prop} [DecidablePred word] [DecidablePred sep]
  {L M : Language α} [DecidablePred (· ∈ L)] [DecidablePred (· ∈ M)]

instance decidableLetter : DecidablePred (· ∈ letter word) := fun _ =>
  decidable_of_iff _ mem_letter_iff.symm

instance decidableSeparated : DecidablePred (· ∈ separated word sep) := fun l =>
  decidable_of_iff _ (isSeparated_iff word sep l)

instance decidableMul : DecidablePred (· ∈ L * M) := fun _ =>
  decidable_of_iff _ mem_mul_iff_split.symm

instance decidableContains : DecidablePred (Contains L) := fun _ =>
  decidable_of_iff _ contains_iff.symm

end Instances

end CgGuide.Languages

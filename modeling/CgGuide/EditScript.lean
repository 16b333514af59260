/-
The script of `Edit.cshtml`.

When the page is ready, its script makes the input of the distance a spinner and puts
rules on the form. The spinner reads the text of the input as a number, brings it between
its bounds and writes it back as a whole number, before anybody has touched the page. The
form is posted when each control keeps its rules, with `\r\n` for every line break.

What a text has come to when it is posted is said here for one control at a time: a number
between the bounds is still the same (`Spinner.format_change_intChars`), any other text is
now one that is between them (`Spinner.exists_format_change`), and a text is posted
unchanged if its line breaks are pairs of a carriage return and a line feed
(`serialized_eq_iff`).
-/
import CgGuide.DotNet
import Mathlib.Algebra.Order.BigOperators.Group.List
import Mathlib.Algebra.Order.Ring.Nat
import Mathlib.Data.List.DropRight
import Mathlib.Tactic.Linarith
import Mathlib.Tactic.Positivity
import Mathlib.Tactic.Zify

set_option autoImplicit false

namespace CgGuide.EditScript

open CgGuide.DotNet

/-! ## Line breaks -/

/-- `value.replace(/\r/g, "")`: what `val` reads of a control, and what `check` gives the
methods to see. -/
def withoutReturns (value : String) : String :=
  String.ofList (value.toList.filter (fun ch => ch != '\r'))

/-- `value.replace(/\r?\n/g, "\r\n")`. -/
def replaceBreaks : List Char → List Char
  | [] => []
  | '\r' :: '\n' :: text => '\r' :: '\n' :: replaceBreaks text
  | '\n' :: text => '\r' :: '\n' :: replaceBreaks text
  | ch :: text => ch :: replaceBreaks text

/-- What `serialize` posts of a control: what `val` reads, with its line breaks replaced. -/
def serialized (value : String) : String :=
  String.ofList (replaceBreaks (withoutReturns value).toList)

/-- The carriage returns and the line feeds of a text come in pairs. -/
def Paired : List Char → Prop
  | [] => True
  | '\r' :: '\n' :: text => Paired text
  | ch :: text => ch ≠ '\r' ∧ ch ≠ '\n' ∧ Paired text

theorem paired_of_not_mem {text : List Char} (h : '\r' ∉ text ∧ '\n' ∉ text) : Paired text := by
  induction text using Paired.induct with
  | case1 => trivial
  | case2 text ih => exact absurd List.mem_cons_self h.1
  | case3 ch text hpair ih =>
    rw [List.mem_cons, List.mem_cons, not_or, not_or] at h
    obtain ⟨⟨hreturn, hreturns⟩, hfeed, hfeeds⟩ := h
    rw [Paired]
    · exact ⟨Ne.symm hreturn, Ne.symm hfeed, ih ⟨hreturns, hfeeds⟩⟩
    · exact hpair

theorem replaceBreaks_cons {ch : Char} (hreturn : ch ≠ '\r') (hfeed : ch ≠ '\n')
    (text : List Char) : replaceBreaks (ch :: text) = ch :: replaceBreaks text := by
  rw [replaceBreaks]
  · exact fun _ h => absurd h hreturn
  · exact hfeed

/-- A text without a carriage return gets one before a line feed only. -/
theorem feed_of_replaceBreaks {text rest : List Char} (hreturn : '\r' ∉ text)
    (h : replaceBreaks text = '\r' :: rest) : ∃ rest', rest = '\n' :: rest' := by
  cases text with
  | nil => exact absurd h (by simp [replaceBreaks])
  | cons ch text =>
    have hch : ch ≠ '\r' := fun h => hreturn (h ▸ List.mem_cons_self)
    by_cases hfeed : ch = '\n'
    · rw [hfeed, replaceBreaks] at h
      exact ⟨_, (List.cons.inj h).2.symm⟩
    · rw [replaceBreaks_cons hch hfeed] at h
      exact absurd (List.cons.inj h).1 hch

theorem replaceBreaks_eq_iff (text : List Char) :
    replaceBreaks (text.filter (fun ch => ch != '\r')) = text ↔ Paired text := by
  induction text using Paired.induct with
  | case1 => exact iff_of_true rfl trivial
  | case2 text ih =>
    have hleft : ('\r' :: '\n' :: text).filter (fun ch => ch != '\r')
        = '\n' :: text.filter (fun ch => ch != '\r') := rfl
    rw [hleft, replaceBreaks, Paired, ← ih, List.cons_inj_right, List.cons_inj_right]
  | case3 ch text hpair ih =>
    have hnone : '\r' ∉ text.filter (fun ch => ch != '\r') :=
      fun h => absurd (List.mem_filter.mp h).2 (by decide)
    rw [Paired]
    swap
    · exact hpair
    by_cases hreturn : ch = '\r'
    · -- a carriage return is given back before a line feed, and there is none
      subst hreturn
      refine iff_of_false (fun h => ?_) (fun h => h.1 rfl)
      have hleft : ('\r' :: text).filter (fun ch => ch != '\r')
          = text.filter (fun ch => ch != '\r') := rfl
      rw [hleft] at h
      obtain ⟨rest, hrest⟩ := feed_of_replaceBreaks hnone h
      exact hpair rest rfl hrest
    · have hleft : (ch :: text).filter (fun ch => ch != '\r')
          = ch :: text.filter (fun ch => ch != '\r') :=
        List.filter_cons_of_pos (bne_iff_ne.mpr hreturn)
      rw [hleft]
      by_cases hfeed : ch = '\n'
      · subst hfeed
        refine iff_of_false (fun h => ?_) (fun h => h.2.1 rfl)
        rw [replaceBreaks] at h
        exact absurd (List.cons.inj h).1 (by decide)
      · rw [replaceBreaks_cons hreturn hfeed, List.cons_inj_right, ih]
        exact ⟨fun h => ⟨hreturn, hfeed, h⟩, fun h => h.2.2⟩

/-- **A text is posted unchanged** exactly when its line breaks are such pairs. -/
theorem serialized_eq_iff (value : String) : serialized value = value ↔ Paired value.toList := by
  rw [← replaceBreaks_eq_iff, ← String.toList_inj, serialized, withoutReturns,
    String.toList_ofList, String.toList_ofList]

theorem serialized_of_not_mem {value : String} (h : '\r' ∉ value.toList ∧ '\n' ∉ value.toList) :
    serialized value = value :=
  (serialized_eq_iff value).mpr (paired_of_not_mem h)

theorem not_mem_intChars {ch : Char} (hsign : ch ≠ '-') (hdigit : ch.isDigit = false) (n : ℤ) :
    ch ∉ intChars n := by
  intro hmem
  rcases mem_intChars hmem with h | h
  · exact hsign h
  · rw [hdigit] at h
    exact absurd h (by decide)

theorem breaks_not_mem_intChars (n : ℤ) : '\r' ∉ intChars n ∧ '\n' ∉ intChars n :=
  ⟨not_mem_intChars (by decide) (by decide) n, not_mem_intChars (by decide) (by decide) n⟩

theorem serialized_intChars (n : ℤ) :
    serialized (String.ofList (intChars n)) = String.ofList (intChars n) := by
  apply serialized_of_not_mem
  rw [String.toList_ofList]
  exact breaks_not_mem_intChars n

/-! ## The rules of the form -/

/-- White space and line terminators of the language. -/
def isWhite (ch : Char) : Bool :=
  decide (ch.toNat ∈ [0x20, 0xA0, 0x1680, 0x2028, 0x2029, 0x202F, 0x205F, 0x3000, 0xFEFF]
    ∨ 0x09 ≤ ch.toNat ∧ ch.toNat ≤ 0x0D ∨ 0x2000 ≤ ch.toNat ∧ ch.toNat ≤ 0x200A)

/-- `$.trim`. -/
def trim (value : String) : String :=
  String.ofList ((value.toList.dropWhile isWhite).rdropWhile isWhite)

/-- The method `required`. -/
def required (value : String) : Bool := decide (trim (withoutReturns value) ≠ "")

/-- The method `maxlength`: a control that is left blank is `optional`. -/
def maxlength (limit : ℕ) (value : String) : Bool :=
  decide (trim value = "" ∨ DotNet.length (trim (withoutReturns value)) ≤ limit)

/-- What is left of a text is not longer than the text. -/
theorem length_le_of_sublist {s t : String} (h : s.toList.Sublist t.toList) :
    DotNet.length s ≤ DotNet.length t :=
  (h.map _).sum_le_sum (fun _ _ => Nat.zero_le _)

theorem length_trim_withoutReturns (value : String) :
    DotNet.length (trim (withoutReturns value)) ≤ DotNet.length value := by
  apply length_le_of_sublist
  rw [trim, withoutReturns, String.toList_ofList, String.toList_ofList]
  exact (List.rdropWhile_prefix _ _).sublist.trans
    ((List.dropWhile_sublist _).trans List.filter_sublist)

theorem maxlength_of_length {limit : ℕ} {value : String} (h : DotNet.length value ≤ limit) :
    maxlength limit value = true :=
  decide_eq_true (Or.inr ((length_trim_withoutReturns value).trans h))

/-- A control is filled if it holds a character that is not white space. -/
theorem required_of_mem {value : String} {ch : Char} (hmem : ch ∈ value.toList)
    (hwhite : isWhite ch = false) : required value = true := by
  refine decide_eq_true (fun hempty => ?_)
  rw [trim, withoutReturns, String.toList_ofList, String.ofList_eq_empty_iff,
    List.rdropWhile_eq_nil_iff] at hempty
  have hfilter : ch ∈ value.toList.filter (fun ch => ch != '\r') := by
    refine List.mem_filter.mpr ⟨hmem, bne_iff_ne.mpr ?_⟩
    rintro rfl
    exact absurd hwhite (by decide)
  cases hleft : (value.toList.filter (fun ch => ch != '\r')).dropWhile isWhite with
  | nil =>
    have hall := List.dropWhile_eq_nil_iff.mp hleft ch hfilter
    rw [hwhite] at hall
    exact absurd hall (by decide)
  | cons first rest =>
    -- what is left begins with a character that is none
    have hfirst := List.head?_dropWhile_not isWhite (value.toList.filter (fun ch => ch != '\r'))
    rw [hleft] at hfirst hempty
    have hfirst : isWhite first = false := hfirst
    rw [hempty first List.mem_cons_self] at hfirst
    exact absurd hfirst (by decide)

/-! ## The spinner -/

namespace Spinner

/-- A number as decimal digits write it, `mantissa / 10 ^ places`. The language rounds its
numbers, but none that are as short as the text of an `Int32`. -/
structure Decimal where
  mantissa : ℤ
  places : ℕ
deriving DecidableEq

/-- The digits behind a decimal point. -/
def fractionOf : List Char → List Char
  | '.' :: text => text.takeWhile Char.isDigit
  | _ => []

/-- `parseFloat`, of a text that holds only digits, signs and points. -/
def parseUnsigned (text : List Char) : Option Decimal :=
  let whole := text.takeWhile Char.isDigit
  let fraction := fractionOf (text.dropWhile Char.isDigit)
  (parseDigits (whole ++ fraction)).map (fun n => ⟨n, fraction.length⟩)

def parseFloat : List Char → Option Decimal
  | '-' :: text => (parseUnsigned text).map (fun a => { a with mantissa := -a.mantissa })
  | text => parseUnsigned text

/-- `parse`; nothing for `NaN`. -/
def parse (text : String) : Option Decimal :=
  parseFloat (text.toList.filter (fun ch => ch.isDigit || ch == '-' || ch == '.'))

variable (min max : ℤ)

/-- The number, or the bound it is behind. -/
def bounded (a : Decimal) : Decimal :=
  if a.mantissa > max * 10 ^ a.places then ⟨max, 0⟩
  else if a.mantissa < min * 10 ^ a.places then ⟨min, 0⟩
  else a

/-- `_validate`: without a number the current one is taken, and without that `min || max`. -/
def validate (curvalue a : Option Decimal) : Decimal :=
  bounded min max ((a.or curvalue).getD ⟨if min ≠ 0 then min else max, 0⟩)

/-- `_change`, on the text of the input: an empty text is null, and one that is no number
is taken for the current number. -/
def change (curvalue : Option Decimal) (text : String) : Decimal :=
  validate min max curvalue (if text = "" then none else parse text)

/-- `Math.abs(a).toFixed(0)`: the nearest whole number, the larger of two. -/
def Decimal.toFixed (a : Decimal) : ℕ :=
  (2 * a.mantissa.natAbs + 10 ^ a.places) / (2 * 10 ^ a.places)

/-- `format`. -/
def format (a : Decimal) : String :=
  (if a.mantissa < 0 then "-" else "") ++ String.ofList (Nat.toDigits 10 a.toFixed)

/-! ### What it writes -/

variable {min max}

/-- The number is brought between the bounds. -/
theorem bounded_bounds (hbounds : min ≤ max) (a : Decimal) :
    min * 10 ^ (bounded min max a).places ≤ (bounded min max a).mantissa
      ∧ (bounded min max a).mantissa ≤ max * 10 ^ (bounded min max a).places := by
  unfold bounded
  split_ifs with habove hbelow
  · simpa using hbounds
  · simpa using hbounds
  · exact ⟨not_lt.mp hbelow, not_lt.mp habove⟩

/-- A number between the bounds is kept. -/
theorem bounded_of_bounds {n : ℤ} (hmin : min ≤ n) (hmax : n ≤ max) :
    bounded min max ⟨n, 0⟩ = ⟨n, 0⟩ := by
  unfold bounded
  rw [pow_zero, mul_one, mul_one, if_neg (not_lt.mpr hmax), if_neg (not_lt.mpr hmin)]

theorem toFixed_natCast (n : ℕ) : (⟨n, 0⟩ : Decimal).toFixed = n := by
  rw [Decimal.toFixed]
  show (2 * (n : ℤ).natAbs + 10 ^ 0) / (2 * 10 ^ 0) = n
  rw [Int.natAbs_natCast]
  omega

/-- Rounding does not leave the bounds. -/
theorem toFixed_le {a : Decimal} (hpos : 0 ≤ a.mantissa) (h : a.mantissa ≤ max * 10 ^ a.places) :
    (a.toFixed : ℤ) ≤ max := by
  have hpow : 0 < 10 ^ a.places := Nat.pow_pos (by decide)
  have hmax : 0 ≤ max := by
    by_contra hneg
    have hlow := mul_neg_of_neg_of_pos (not_le.mp hneg) (Int.natCast_pos.mpr hpow)
    push_cast at hlow
    omega
  obtain ⟨m, rfl⟩ := Int.eq_ofNat_of_zero_le hmax
  have hle : a.mantissa.natAbs ≤ m * 10 ^ a.places := by
    zify
    rwa [abs_of_nonneg hpos]
  rw [Nat.cast_le, Decimal.toFixed]
  refine Nat.le_of_lt_succ ((Nat.div_lt_iff_lt_mul (by omega)).mpr ?_)
  calc 2 * a.mantissa.natAbs + 10 ^ a.places
      ≤ 2 * (m * 10 ^ a.places) + 10 ^ a.places := by omega
    _ < (m + 1) * (2 * 10 ^ a.places) := by nlinarith

variable (min max) in
/-- **Any text becomes that of a whole number** between the bounds. -/
theorem exists_format_change (hmin : 0 ≤ min) (hbounds : min ≤ max) (curvalue : Option Decimal)
    (text : String) :
    ∃ n : ℕ, (n : ℤ) ≤ max
      ∧ format (change min max curvalue text) = String.ofList (intChars n) := by
  obtain ⟨hlow, hhigh⟩ : min * 10 ^ (change min max curvalue text).places
        ≤ (change min max curvalue text).mantissa
      ∧ (change min max curvalue text).mantissa
        ≤ max * 10 ^ (change min max curvalue text).places := bounded_bounds hbounds _
  have hpos : 0 ≤ (change min max curvalue text).mantissa :=
    le_trans (mul_nonneg hmin (by positivity)) hlow
  refine ⟨(change min max curvalue text).toFixed, toFixed_le hpos hhigh, ?_⟩
  rw [format, if_neg (not_lt.mpr hpos), intChars, if_neg (by omega), Int.natAbs_natCast,
    String.empty_append]

theorem parseUnsigned_toDigits (n : ℕ) : parseUnsigned (Nat.toDigits 10 n) = some ⟨n, 0⟩ := by
  have hall : ∀ ch ∈ Nat.toDigits 10 n, ch.isDigit = true := fun ch hch => isDigit_of_mem_digits hch
  have hwhole : (Nat.toDigits 10 n).takeWhile Char.isDigit = Nat.toDigits 10 n :=
    List.takeWhile_eq_self_iff.mpr hall
  have hnone : (Nat.toDigits 10 n).dropWhile Char.isDigit = [] :=
    List.dropWhile_eq_nil_iff.mpr hall
  have hfraction : fractionOf [] = [] := rfl
  rw [parseUnsigned, hwhole, hnone, hfraction, List.append_nil, parseDigits_toDigits]
  rfl

/-- A whole number is read as it is written. -/
theorem parse_intChars (n : ℕ) : parse (String.ofList (intChars n)) = some ⟨n, 0⟩ := by
  have hdigits : intChars n = Nat.toDigits 10 n := by
    rw [intChars, if_neg (by omega), Int.natAbs_natCast]
  have hkept : (Nat.toDigits 10 n).filter (fun ch => ch.isDigit || ch == '-' || ch == '.')
      = Nat.toDigits 10 n := by
    apply List.filter_eq_self.mpr
    intro ch hch
    rw [isDigit_of_mem_digits hch]
    rfl
  rw [parse, String.toList_ofList, hdigits, hkept, ← parseUnsigned_toDigits]
  unfold parseFloat
  split
  · next text htext =>
    have hsign : '-' ∈ Nat.toDigits 10 n := by
      rw [htext]
      exact List.mem_cons_self
    exact absurd (isDigit_of_mem_digits hsign) (by decide)
  · rfl

/-- **A whole number between the bounds stays as it is.** -/
theorem format_change_intChars {n : ℕ} (hlow : min ≤ n) (hhigh : n ≤ max)
    (curvalue : Option Decimal) :
    format (change min max curvalue (String.ofList (intChars n))) = String.ofList (intChars n) := by
  have hnonempty : String.ofList (intChars n) ≠ "" := by
    rw [ne_eq, String.ofList_eq_empty_iff, intChars, if_neg (by omega)]
    exact Nat.toDigits_ne_nil
  rw [change, if_neg hnonempty, parse_intChars, validate, Option.some_or, Option.getD_some,
    bounded_of_bounds hlow hhigh, format, toFixed_natCast, if_neg (by simp), intChars,
    if_neg (by omega), Int.natAbs_natCast, String.empty_append]

/-- The text of a small number keeps the rules of its input. -/
theorem required_intChars (n : ℕ) : required (String.ofList (intChars n)) = true := by
  have hwhite : ∀ ch : Char, ch.isDigit = true → isWhite ch = false := by
    intro ch hch
    obtain ⟨hlow, hhigh⟩ := (Bool.and_eq_true _ _).mp hch
    have hlow : 48 ≤ ch.toNat := of_decide_eq_true hlow
    have hhigh : ch.toNat ≤ 57 := of_decide_eq_true hhigh
    rw [isWhite, decide_eq_false_iff_not]
    simp only [List.mem_cons, List.not_mem_nil, or_false]
    omega
  rw [intChars, if_neg (by omega), Int.natAbs_natCast]
  obtain ⟨ch, hch⟩ := List.exists_mem_of_ne_nil _ (Nat.toDigits_ne_nil (b := 10) (n := n))
  have hmem : ch ∈ (String.ofList (Nat.toDigits 10 n)).toList := by rwa [String.toList_ofList]
  exact required_of_mem hmem (hwhite ch (isDigit_of_mem_digits hch))

theorem length_intChars {n k : ℕ} (hk : 0 < k) (hn : n < 10 ^ k) :
    DotNet.length (String.ofList (intChars n)) ≤ k := by
  have hone : ∀ ch ∈ Nat.toDigits 10 n, (if ch.toNat < 0x10000 then 1 else 2) = 1 := by
    intro ch hch
    have hdigit := (Bool.and_eq_true _ _).mp (isDigit_of_mem_digits hch)
    have hhigh : ch.toNat ≤ 57 := of_decide_eq_true hdigit.2
    rw [if_pos (by omega)]
  rw [DotNet.length, String.toList_ofList, intChars, if_neg (by omega), Int.natAbs_natCast,
    List.map_congr_left hone, List.map_const', List.sum_replicate_nat, mul_one]
  exact (Nat.length_toDigits_le_iff (by decide) hk).mpr hn

end Spinner

end CgGuide.EditScript

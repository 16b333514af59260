/-
The runtime the repository is written against: exceptions, `DateTime`, and the
handful of `string` tests the sources use.

Only what the modelled functions read is here. A `string` that may be null is
an `Option String`; a value type (`int`, `DateTime`, `bool`) is never null, and
its nullable form `T?` is an `Option`. A method that mutates an object or a
store and may throw is an `EStateM`: an exception keeps every mutation made
before it, which is what a C# exception does and what half of the results of
this development are about.
-/
import Mathlib.Algebra.Group.Int.Defs
import Mathlib.Algebra.GroupWithZero.Nat
import Mathlib.Data.Int.Notation
import Mathlib.Data.List.Infix
import Mathlib.Data.List.TakeWhile
import Mathlib.Order.Basic

set_option autoImplicit false

namespace CgGuide.DotNet

/-! ## Exceptions -/

/-- The exception classes that can reach a caller of the modelled code. -/
inductive ExceptionType
  | argument
  | argumentNull
  | dbEntityValidation
  | dbUpdate
  | dbUpdateConcurrency
  | exception
  | format
  | indexOutOfRange
  | invalidCast
  | invalidOperation
  | membershipPassword
  | nullReference
  | overflow
  | provider
  | targetInvocation
deriving DecidableEq, Repr

/-- A thrown exception. `message` and `paramName` are the texts the repository
passes to the constructor; without a message the runtime supplies its own. -/
structure Exception where
  type : ExceptionType
  message : Option String := none
  paramName : Option String := none
deriving DecidableEq, Repr

/-- `Exception.Message`, where `runtimeText` is the text the runtime has for
each class. -/
def Exception.text (runtimeText : ExceptionType → String) (e : Exception) : String :=
  e.message.getD (runtimeText e.type)

/-- After a call that returns, the rest runs on what it returned. -/
@[simp] theorem ok_bind {α β : Type} (a : α) (f : α → Except Exception β) :
    (Except.ok a >>= f) = f a := rfl

/-- After one that throws nothing runs. -/
@[simp] theorem error_bind {α β : Type} (e : Exception) (f : α → Except Exception β) :
    (Except.error e >>= f) = .error e := rfl

/-! ## Strings -/

/-- `string.IsNullOrEmpty`. -/
def isNullOrEmpty : Option String → Bool
  | none => true
  | some s => s == ""

@[simp] theorem isNullOrEmpty_none : isNullOrEmpty none = true := rfl

@[simp] theorem isNullOrEmpty_some (s : String) : isNullOrEmpty (some s) = (s == "") := rfl

theorem exists_of_not_isNullOrEmpty {value : Option String} (h : isNullOrEmpty value = false) :
    ∃ s, value = some s := by
  cases value with
  | none => exact absurd h (by decide)
  | some s => exact ⟨s, rfl⟩

/-- `string.Length`, in UTF-16 code units: a character outside the basic plane
takes two. -/
def length (s : String) : ℕ := (s.toList.map (fun c => if c.toNat < 0x10000 then 1 else 2)).sum

/-- `string.Contains`: `t` occurs in `s` as a run of consecutive characters. -/
def contains (s t : String) : Bool := decide (t.toList <:+: s.toList)

/-- `string.Split`. -/
def split (s : String) (separator : Char) : List String :=
  (s.toList.splitOn separator).map String.ofList

theorem split_of_not_mem {s : String} {c : Char} (h : c ∉ s.toList) : split s c = [s] := by
  rw [split, List.splitOn_eq_singleton h, List.map_singleton, String.ofList_toList]

/-- The first part ends at the first separator. -/
theorem split_of_append {s a b : String} {c : Char} (hs : s.toList = a.toList ++ c :: b.toList)
    (ha : c ∉ a.toList) : split s c = a :: split b c := by
  rw [split, hs, List.splitOn_append_cons_self_of_not_mem ha, List.map_cons, String.ofList_toList]
  rfl

/-- Parts without the separator, joined by it, split into themselves. -/
theorem split_intercalate {c : Char} {separator : String} (hc : separator.toList = [c])
    {parts : List String} (h : ∀ s ∈ parts, c ∉ s.toList) (hne : parts ≠ []) :
    split (separator.intercalate parts) c = parts := by
  have hparts : ∀ l ∈ parts.map String.toList, c ∉ l := by
    intro l hl
    obtain ⟨s, hs, rfl⟩ := List.mem_map.mp hl
    exact h s hs
  have hne' : parts.map String.toList ≠ [] := by
    rw [ne_eq, List.map_eq_nil_iff]
    exact hne
  rw [split, String.toList_intercalate, hc, List.splitOn_intercalate c hparts hne', List.map_map]
  have hid : String.ofList ∘ String.toList = id := funext (fun s => String.ofList_toList)
  rw [hid, List.map_id]

/-- Reading up to the first separator, and from it on. -/
theorem takeWhile_append_cons {a b : List Char} {c : Char} (ha : c ∉ a) :
    (a ++ c :: b).takeWhile (· != c) = a ∧ (a ++ c :: b).dropWhile (· != c) = c :: b := by
  have hkeep : ∀ x ∈ a, (x != c) = true := by
    intro x hx
    rw [bne_iff_ne]
    rintro rfl
    exact ha hx
  rw [List.takeWhile_append_of_pos hkeep, List.dropWhile_append_of_pos hkeep]
  simp

/-- Without a separator the reading goes to the end. -/
theorem dropWhile_of_not_mem {l : List Char} {c : Char} (h : c ∉ l) :
    l.dropWhile (· != c) = [] := by
  rw [List.dropWhile_eq_nil_iff]
  intro x hx
  rw [bne_iff_ne]
  rintro rfl
  exact h hx

/-- The text before the first `c`; the whole text without one. -/
def before (s : String) (c : Char) : String := String.ofList (s.toList.takeWhile (· != c))

/-- The text behind the first `c`; empty without one. -/
def behind (s : String) (c : Char) : String :=
  String.ofList ((s.toList.dropWhile (· != c)).drop 1)

theorem before_behind_of_append {s a b : String} {c : Char}
    (h : s.toList = a.toList ++ c :: b.toList) (ha : c ∉ a.toList) :
    before s c = a ∧ behind s c = b := by
  obtain ⟨htake, hdrop⟩ := takeWhile_append_cons (b := b.toList) ha
  rw [before, behind, h, htake, hdrop, List.drop_one, List.tail_cons, String.ofList_toList,
    String.ofList_toList]
  exact ⟨rfl, rfl⟩

theorem before_of_not_mem {s : String} {c : Char} (h : c ∉ s.toList) : before s c = s := by
  have hall : ∀ x ∈ s.toList, (x != c) = true := by
    intro x hx
    rw [bne_iff_ne]
    rintro rfl
    exact h hx
  rw [before, List.takeWhile_eq_self_iff.mpr hall, String.ofList_toList]

theorem behind_of_not_mem {s : String} {c : Char} (h : c ∉ s.toList) : behind s c = "" := by
  rw [behind, dropWhile_of_not_mem h]
  rfl

/-- A text with a separator is what stands before it, the separator, and what stands
behind it. -/
theorem toList_before_behind {s : String} {c : Char} (h : c ∈ s.toList) :
    s.toList = (before s c).toList ++ c :: (behind s c).toList
      ∧ c ∉ (before s c).toList := by
  obtain ⟨a, b, hs, ha⟩ := List.eq_append_cons_of_mem h
  have hs' : s.toList = (String.ofList a).toList ++ c :: (String.ofList b).toList := by
    rw [String.toList_ofList, String.toList_ofList]
    exact hs
  have ha' : c ∉ (String.ofList a).toList := by
    rw [String.toList_ofList]
    exact ha
  obtain ⟨hbefore, hbehind⟩ := before_behind_of_append hs' ha'
  rw [hbefore, hbehind]
  exact ⟨hs', ha'⟩

/-- **The parts of a text**, the first and the others. -/
theorem split_eq (s : String) (c : Char) :
    split s c = before s c :: if c ∈ s.toList then split (behind s c) c else [] := by
  by_cases h : c ∈ s.toList
  · obtain ⟨hs, hbefore⟩ := toList_before_behind h
    rw [if_pos h, split_of_append hs hbefore]
  · rw [if_neg h, split_of_not_mem h, before_of_not_mem h]

/-- Of a text with a mark in it, the segments in front of the mark are segments of the
whole, and the one the mark stands in goes on behind it. -/
theorem split_around {s a b : String} {mark c : Char} (hs : s.toList = a.toList ++ mark :: b.toList)
    (hmark : mark ≠ c) :
    ∃ front x y rest, split a c = front ++ [x] ∧ split b c = y :: rest
      ∧ split s c = front ++ (x ++ String.ofList (mark :: y.toList)) :: rest := by
  generalize hlength : a.length = n
  induction n using Nat.strongRecOn generalizing s a with
  | ind n ih =>
    by_cases hmem : c ∈ a.toList
    · -- the first segment ends in front of the mark
      obtain ⟨ha, hbefore⟩ := toList_before_behind hmem
      have hs' : s.toList = (before a c).toList
          ++ c :: (String.ofList ((behind a c).toList ++ mark :: b.toList)).toList := by
        rw [hs, ha, String.toList_ofList, List.append_assoc, List.cons_append]
      have hshort : (behind a c).length < n := by
        have hlen := congrArg List.length ha
        rw [List.length_append, List.length_cons] at hlen
        rw [← hlength, ← String.length_toList, ← String.length_toList]
        omega
      obtain ⟨front, x, y, rest, hfront, hb, hrest⟩ := ih _ hshort
        (String.toList_ofList (l := (behind a c).toList ++ mark :: b.toList)) rfl
      refine ⟨before a c :: front, x, y, rest, ?_, hb, ?_⟩
      · rw [split_of_append ha hbefore, hfront, List.cons_append]
      · rw [split_of_append hs' hbefore, hrest, List.cons_append]
    · have hjoin : ∀ y : String, (a ++ String.ofList (mark :: y.toList)).toList
          = a.toList ++ mark :: y.toList := by
        intro y
        rw [String.toList_append, String.toList_ofList]
      by_cases hb : c ∈ b.toList
      · obtain ⟨hb', hbefore⟩ := toList_before_behind hb
        refine ⟨[], a, before b c, split (behind b c) c, split_of_not_mem hmem,
          split_of_append hb' hbefore, ?_⟩
        have hs' : s.toList = (a ++ String.ofList (mark :: (before b c).toList)).toList
            ++ c :: (behind b c).toList := by
          rw [hs, hjoin, hb', List.append_assoc, List.cons_append]
        have hnot : c ∉ (a ++ String.ofList (mark :: (before b c).toList)).toList := by
          rw [hjoin, List.mem_append, List.mem_cons]
          rintro (h | h | h)
          · exact hmem h
          · exact hmark h.symm
          · exact hbefore h
        rw [split_of_append hs' hnot, List.nil_append]
      · refine ⟨[], a, b, [], split_of_not_mem hmem, split_of_not_mem hb, ?_⟩
        have hs' : s = a ++ String.ofList (mark :: b.toList) := by
          rw [← String.toList_inj, hs, hjoin]
        have hnot : c ∉ s.toList := by
          rw [hs, List.mem_append, List.mem_cons]
          rintro (h | h | h)
          · exact hmem h
          · exact hmark h.symm
          · exact hb h
        rw [split_of_not_mem hnot, hs', List.nil_append]

/-- A text with at most one separator has none, or falls into two parts. -/
theorem separator_cases {s : String} {c : Char} (h : s.toList.count c ≤ 1) :
    c ∉ s.toList ∨ ∃ a b : String, s.toList = a.toList ++ c :: b.toList
      ∧ c ∉ a.toList ∧ c ∉ b.toList := by
  by_cases hmem : c ∈ s.toList
  · right
    obtain ⟨a, b, hab, ha⟩ := List.eq_append_cons_of_mem hmem
    have hcount : s.toList.count c = a.count c + (b.count c + 1) := by
      rw [hab, List.count_append, List.count_cons_self]
    have hb : c ∉ b := List.count_eq_zero.mp (by omega)
    refine ⟨String.ofList a, String.ofList b, ?_, ?_, ?_⟩
    · rw [String.toList_ofList, String.toList_ofList]
      exact hab
    · rw [String.toList_ofList]
      exact ha
    · rw [String.toList_ofList]
      exact hb
  · exact Or.inl hmem

/-! ## Integers as texts

`int.Parse` and `int.TryParse` read `NumberStyles.Integer`: white space on both
sides, one sign, decimal digits, and then possibly null characters. The signs
are those of a culture that writes them `-` and `+`. -/

/-- The white space of the number parser. -/
def isWhite (c : Char) : Bool := c == ' ' || (0x09 ≤ c.toNat && c.toNat ≤ 0x0D)

def trimNumber (text : List Char) : List Char :=
  (((text.dropWhile isWhite).reverse.dropWhile (· == '\x00')).dropWhile isWhite).reverse

def parseDigits (text : List Char) : Option ℕ :=
  if text ≠ [] ∧ text.all Char.isDigit then some (Nat.ofDigitChars 10 text 0) else none

def parseSigned : List Char → Option ℤ
  | '-' :: digits => (parseDigits digits).map (fun n : ℕ => -(n : ℤ))
  | '+' :: digits => (parseDigits digits).map Int.ofNat
  | digits => (parseDigits digits).map Int.ofNat

/-- `int.TryParse`: the value, if the text is a number an `int` holds. -/
def int32TryParse (text : String) : Option Int32 :=
  match parseSigned (trimNumber text.toList) with
  | none => none
  | some n => if -2 ^ 31 ≤ n ∧ n < 2 ^ 31 then some (Int32.ofInt n) else none

/-- `int.Parse`. -/
def int32Parse (text : String) : Except Exception Int32 :=
  match parseSigned (trimNumber text.toList) with
  | none => .error { type := .format }
  | some n => if -2 ^ 31 ≤ n ∧ n < 2 ^ 31 then .ok (Int32.ofInt n) else .error { type := .overflow }

def intChars (n : ℤ) : List Char :=
  if n < 0 then '-' :: Nat.toDigits 10 n.natAbs else Nat.toDigits 10 n.natAbs

/-- `int.ToString`. -/
def int32ToString (n : Int32) : String := String.ofList (intChars n.toInt)

theorem int32ToString_ofNat {n : ℕ} (h : n < 2 ^ 31) :
    int32ToString (Int32.ofNat n) = String.ofList (intChars n) := by
  rw [int32ToString, Int32.toInt_ofNat_of_lt h]

theorem isDigit_of_mem_digits {n : ℕ} {c : Char} (hc : c ∈ Nat.toDigits 10 n) :
    c.isDigit = true :=
  Nat.isDigit_of_mem_toDigits (by decide) (by decide) hc

/-- A number is written with digits and a minus sign. -/
theorem mem_intChars {n : ℤ} {c : Char} (hc : c ∈ intChars n) : c = '-' ∨ c.isDigit = true := by
  unfold intChars at hc
  split_ifs at hc
  · rcases List.mem_cons.mp hc with hsign | hdigit
    · exact Or.inl hsign
    · exact Or.inr (isDigit_of_mem_digits hdigit)
  · exact Or.inr (isDigit_of_mem_digits hc)

/-- Digits read back as the number they write. -/
theorem parseDigits_toDigits (n : ℕ) : parseDigits (Nat.toDigits 10 n) = some n := by
  have hall : (Nat.toDigits 10 n).all Char.isDigit = true := by
    rw [List.all_eq_true]
    intro c hc
    exact isDigit_of_mem_digits hc
  rw [parseDigits, if_pos ⟨Nat.toDigits_ne_nil, hall⟩, Nat.ofDigitChars_ten_toDigits]

theorem parseSigned_intChars (n : ℤ) : parseSigned (intChars n) = some n := by
  unfold intChars
  split_ifs with hneg
  · rw [parseSigned, parseDigits_toDigits, Option.map_some]
    congr 1
    omega
  · -- a text of digits starts with neither sign
    have hdigit : ∀ c ∈ Nat.toDigits 10 n.natAbs, c.isDigit = true :=
      fun c hc => isDigit_of_mem_digits hc
    have hval : (parseDigits (Nat.toDigits 10 n.natAbs)).map Int.ofNat = some n := by
      rw [parseDigits_toDigits, Option.map_some]
      congr 1
      exact Int.natAbs_of_nonneg (by omega)
    unfold parseSigned
    split
    · next digits h => exact absurd (hdigit '-' (by rw [h]; exact List.mem_cons_self)) (by decide)
    · next digits h => exact absurd (hdigit '+' (by rw [h]; exact List.mem_cons_self)) (by decide)
    · exact hval

/-- Nothing is trimmed from a number as `ToString` writes it. -/
theorem trimNumber_intChars (n : ℤ) : trimNumber (intChars n) = intChars n := by
  have hchar : ∀ c ∈ intChars n, isWhite c = false ∧ (c == '\x00') = false := by
    have hdigit : ∀ c : Char, c.isDigit = true → isWhite c = false ∧ (c == '\x00') = false := by
      intro c hc
      have hlow : 48 ≤ c.toNat := by
        have h := (Bool.and_eq_true _ _).mp hc
        exact of_decide_eq_true h.1
      have hspace : c ≠ ' ' := by
        rintro rfl
        exact absurd hlow (by decide)
      have hnull : c ≠ '\x00' := by
        rintro rfl
        exact absurd hlow (by decide)
      refine ⟨?_, by simpa using hnull⟩
      simp only [isWhite, beq_eq_false_iff_ne.mpr hspace, Bool.false_or]
      have hhigh : ¬ c.toNat ≤ 0x0D := by omega
      simp [hhigh]
    intro c hc
    rcases mem_intChars hc with rfl | hc
    · decide
    · exact hdigit c hc
  have hkeep : ∀ (p : Char → Bool) (l : List Char), (∀ c ∈ l, p c = false) → l.dropWhile p = l := by
    intro p l hl
    cases l with
    | nil => rfl
    | cons c l => rw [List.dropWhile_cons_of_neg (by simp [hl c List.mem_cons_self])]
  unfold trimNumber
  rw [hkeep isWhite _ (fun c hc => (hchar c hc).1),
    hkeep _ _ (fun c hc => (hchar c (List.mem_reverse.mp hc)).2),
    hkeep isWhite _ (fun c hc => (hchar c (List.mem_reverse.mp hc)).1), List.reverse_reverse]

/-- **A number reads back as itself.** -/
theorem int32TryParse_int32ToString (n : Int32) : int32TryParse (int32ToString n) = some n := by
  have hlow := n.le_toInt
  have hhigh := n.toInt_lt
  rw [int32TryParse, int32ToString, String.toList_ofList, trimNumber_intChars, parseSigned_intChars]
  simp only [if_pos (And.intro hlow hhigh), Int32.ofInt_toInt]

theorem int32Parse_int32ToString (n : Int32) : int32Parse (int32ToString n) = .ok n := by
  have hlow := n.le_toInt
  have hhigh := n.toInt_lt
  rw [int32Parse, int32ToString, String.toList_ofList, trimNumber_intChars, parseSigned_intChars]
  simp only [if_pos (And.intro hlow hhigh), Int32.ofInt_toInt]

/-! ## `DateTime`

A `DateTime` is its number of ticks (100 ns) since the first of January of the
year 1, below the end of the year 9999. -/

/-- `DateTime.MaxValue.Ticks + 1`. -/
abbrev ticksEnd : ℕ := 3155378976000000000

structure DateTime where
  ticks : ℕ
  ticks_lt : ticks < ticksEnd
deriving DecidableEq

namespace DateTime

/-- `default(DateTime)`. -/
def minValue : DateTime := ⟨0, by decide⟩

instance : LE DateTime := ⟨fun a b => a.ticks ≤ b.ticks⟩

instance (a b : DateTime) : Decidable (a ≤ b) := inferInstanceAs (Decidable (a.ticks ≤ b.ticks))

theorem le_total (a b : DateTime) : a ≤ b ∨ b ≤ a := Nat.le_total a.ticks b.ticks

theorem le_trans {a b c : DateTime} (h₁ : a ≤ b) (h₂ : b ≤ c) : a ≤ c := Nat.le_trans h₁ h₂

end DateTime

end CgGuide.DotNet

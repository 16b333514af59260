/-
What `ValidateEmail` accepts.

The pattern of the rule spells an address out, and the rule asks whether it matches
somewhere in the value, not whether it matches the value. What a search finds is decided
around an `@`: a letter of a word before it, and behind it a host, a dot and one more letter
(`contains_address_iff`). The rest of the value is not looked at, and `validatesAddress_iff`
says for which values that is no difference.
-/
import CgGuide.Languages
import CgGuide.Validation

set_option autoImplicit false

namespace CgGuide.EmailRule

open Computability
open CgGuide.DotNet CgGuide.BusinessRules CgGuide.Validation CgGuide.Languages

/-! ## Patterns -/

/-- The expressions that the pattern of the rule is made of. -/
inductive Pattern
  | words
  | char (c : Char)
  | set (cs : List Char)
  | seq (p q : Pattern)
  | many (p : Pattern)

namespace Pattern

/-- How the expression is written. -/
def text : Pattern → String
  | words => "\\w+"
  | char c => if c = '.' then "\\." else String.singleton c
  | set cs => "[" ++ String.ofList cs ++ "]"
  | seq p q => p.text ++ q.text
  | many p => "(" ++ p.text ++ ")*"

/-- The texts that it stands for, where `\w` is a letter of a word. -/
def language (isWord : Char → Prop) : Pattern → Language Char
  | words => plus (letter isWord)
  | char c => letter (· = c)
  | set cs => letter (· ∈ cs)
  | seq p q => p.language isWord * q.language isWord
  | many p => (p.language isWord)∗

end Pattern

/-- Words with separators of a set between them. -/
def separatedBy (cs : List Char) : Pattern := .seq .words (.many (.seq (.set cs) .words))

/-- The pattern of `ValidateEmail`. -/
def emailPattern : Pattern :=
  .seq (separatedBy ['-', '+', '.']) (.seq (.char '@')
    (.seq (separatedBy ['-', '.']) (.seq (.char '.') (separatedBy ['-', '.']))))

theorem text_emailPattern (propertyName : String) :
    (ValidateEmail.new propertyName).kind = .regex (some emailPattern.text) := by
  have htext : emailPattern.text
      = "\\w+([-+.]\\w+)*@\\w+([-.]\\w+)*\\.\\w+([-.]\\w+)*" := by decide
  rw [htext]
  rfl

/-! ## Addresses -/

section Addresses

variable (isWord : Char → Prop)

/-- What stands before the `@`. -/
def localPart : Language Char := separated isWord (· ∈ ['-', '+', '.'])

/-- The words of a host. -/
def host : Language Char := separated isWord (· ∈ ['-', '.'])

/-- What stands behind the `@`: two hosts with a dot between them. -/
def domain : Language Char := host isWord * (letter (· = '.') * host isWord)

/-- The language of the pattern. -/
def address : Language Char := localPart isWord * (letter (· = '@') * domain isWord)

section Decide

variable [DecidablePred isWord]

instance decidableLocalPart : DecidablePred (· ∈ localPart isWord) :=
  inferInstanceAs (DecidablePred (· ∈ separated isWord (· ∈ ['-', '+', '.'])))

instance decidableHost : DecidablePred (· ∈ host isWord) :=
  inferInstanceAs (DecidablePred (· ∈ separated isWord (· ∈ ['-', '.'])))

instance decidableDomain : DecidablePred (· ∈ domain isWord) :=
  inferInstanceAs (DecidablePred (· ∈ host isWord * (letter (· = '.') * host isWord)))

instance decidableAddress : DecidablePred (· ∈ address isWord) :=
  inferInstanceAs (DecidablePred (· ∈ localPart isWord * (letter (· = '@') * domain isWord)))

end Decide

theorem language_emailPattern : emailPattern.language isWord = address isWord := rfl

variable {isWord} {l : List Char}

theorem mem_domain_iff : l ∈ domain isWord
    ↔ ∃ d d', l = d ++ '.' :: d' ∧ d ∈ host isWord ∧ d' ∈ host isWord :=
  mem_mul_letter_mul

theorem mem_address_iff : l ∈ address isWord
    ↔ ∃ before after, l = before ++ '@' :: after ∧ before ∈ localPart isWord
        ∧ after ∈ domain isWord :=
  mem_mul_letter_mul

/-! ### The one `@` of an address -/

variable (hat : ¬ isWord '@')
include hat

theorem not_at_of_separated {cs : List Char} (hcs : '@' ∉ cs)
    (h : l ∈ separated isWord (· ∈ cs)) : '@' ∉ l := by
  intro hmem
  rcases (mem_separated_iff.mp h).letters '@' hmem with hword | hsep
  · exact hat hword
  · exact hcs hsep

theorem not_at_of_localPart (h : l ∈ localPart isWord) : '@' ∉ l :=
  not_at_of_separated hat (by decide) h

theorem not_at_of_domain (h : l ∈ domain isWord) : '@' ∉ l := by
  obtain ⟨d, d', rfl, hd, hd'⟩ := mem_domain_iff.mp h
  have hfirst : '@' ∉ d := not_at_of_separated hat (by decide) hd
  have hsecond : '@' ∉ d' := not_at_of_separated hat (by decide) hd'
  simp [hfirst, hsecond]

/-- An address has one reading. -/
theorem address_split {before after : List Char}
    (h : before ++ '@' :: after ∈ address isWord) :
    before ∈ localPart isWord ∧ after ∈ domain isWord := by
  obtain ⟨b, a, hl, hb, ha⟩ := mem_address_iff.mp h
  rcases field_cases (not_at_of_localPart hat hb) hl.symm with ⟨rfl, rfl⟩ | ⟨r, -, rfl⟩
  · exact ⟨hb, ha⟩
  · -- a second one would stand in the domain
    exact absurd (List.mem_append_right r List.mem_cons_self) (not_at_of_domain hat ha)

theorem count_address (h : l ∈ address isWord) : l.count '@' = 1 := by
  obtain ⟨b, a, rfl, hb, ha⟩ := mem_address_iff.mp h
  rw [List.count_append, List.count_cons_self,
    List.count_eq_zero.mpr (not_at_of_localPart hat hb),
    List.count_eq_zero.mpr (not_at_of_domain hat ha)]

/-- A text with two addresses in it is none. -/
theorem two_addresses {a u b v c : List Char} (hu : u ∈ address isWord)
    (hv : v ∈ address isWord) : a ++ u ++ b ++ v ++ c ∉ address isWord := by
  intro h
  have hcount := count_address hat h
  simp only [List.count_append, count_address hat hu, count_address hat hv] at hcount
  omega

end Addresses

/-! ## What a search finds -/

/-- An address can be read around an `@` between these two texts. -/
structure AroundAt (isWord : Char → Prop) (before after : List Char) : Prop where
  before : ∃ a c, before = a ++ [c] ∧ isWord c
  after : ∃ d c r, after = d ++ '.' :: c :: r ∧ d ∈ host isWord ∧ isWord c

section Search

variable {isWord : Char → Prop} {l : List Char}

theorem aroundAt_of_address {before after a b : List Char} (hbefore : before ∈ localPart isWord)
    (hafter : after ∈ domain isWord) : AroundAt isWord (a ++ before) (after ++ b) := by
  obtain ⟨a', c, rfl, hc⟩ := (mem_separated_iff.mp hbefore).ends
  obtain ⟨d, d', rfl, hd, hd'⟩ := mem_domain_iff.mp hafter
  obtain ⟨c', r, rfl, hc'⟩ := (mem_separated_iff.mp hd').begins
  exact ⟨⟨a ++ a', c, by simp, hc⟩, ⟨d, c', r ++ b, by simp, hd, hc'⟩⟩

/-- The shortest address around the `@`: one letter, the host, the dot and one letter. -/
theorem contains_of_aroundAt {before after : List Char} (h : AroundAt isWord before after) :
    Contains (address isWord) (before ++ '@' :: after) := by
  obtain ⟨⟨a, c, rfl, hc⟩, ⟨d, c', r, rfl, hd, hc'⟩⟩ := h
  refine ⟨[c] ++ '@' :: (d ++ '.' :: [c']), ⟨a, r, by simp⟩, ?_⟩
  exact mem_address_iff.mpr ⟨[c], d ++ '.' :: [c'], rfl, mem_separated_iff.mpr (.single hc),
    mem_domain_iff.mpr ⟨d, [c'], rfl, hd, mem_separated_iff.mpr (.single hc')⟩⟩

/-- **A text contains an address** where it has such an `@`. -/
theorem contains_address_iff : Contains (address isWord) l
    ↔ ∃ before after, l = before ++ '@' :: after ∧ AroundAt isWord before after := by
  constructor
  · rintro ⟨t, ⟨a, b, rfl⟩, ht⟩
    obtain ⟨before, after, rfl, hbefore, hafter⟩ := mem_address_iff.mp ht
    exact ⟨a ++ before, after ++ b, by simp, aroundAt_of_address hbefore hafter⟩
  · rintro ⟨before, after, rfl, h⟩
    exact contains_of_aroundAt h

end Search

/-! ## The rule -/

/-- `Regex.Match` looks for a word of the pattern in the text. -/
def Searches (runtime : Runtime) (isWord : Char → Prop) (pattern : Pattern) : Prop :=
  ∀ s, ∃ b, runtime.regexMatch s pattern.text = .ok b
    ∧ (b = true ↔ Contains (pattern.language isWord) s.toList)

/-- The rule, with either constructor. -/
def emailRule (propertyName : String) (message : Option String) : BusinessRule :=
  (ValidateEmail.new propertyName).withErrorMessage message

/-- The rule accepts addresses and nothing else: no text with more than an address in it,
and none with two. -/
structure ValidatesAddress (runtime : Runtime) (isWord : Char → Prop) (o : BusinessObject)
    (rule : BusinessRule) (s : String) : Prop where
  exact : Accepts runtime o rule ↔ s.toList ∈ address isWord
  surrounded : ∀ a u b, s.toList = a ++ u ++ b → u ∈ address isWord →
    s.toList ∉ address isWord → ¬ Accepts runtime o rule
  twice : ∀ a u b v c, s.toList = a ++ u ++ b ++ v ++ c → u ∈ address isWord →
    v ∈ address isWord → ¬ Accepts runtime o rule

section Main

variable {runtime : Runtime} {isWord : Char → Prop} {o : BusinessObject} {propertyName : String}
  {s : String}

/-- **What the rule decides**: whether the value contains an address. -/
theorem accepts_emailRule (hsearches : Searches runtime isWord emailPattern)
    (hvalue : o.getPropertyValue propertyName = .ok (.string s)) (message : Option String) :
    Accepts runtime o (emailRule propertyName message)
      ↔ Contains (address isWord) s.toList := by
  obtain ⟨b, hmatch, hb⟩ := hsearches s
  have hkind : (emailRule propertyName message).kind = .regex (some emailPattern.text) :=
    text_emailPattern propertyName
  have hverdict : ((emailRule propertyName message).validate runtime o).1 = .ok b := by
    unfold BusinessRule.validate
    rw [hkind]
    show ValidateRegex.validate runtime o propertyName (some emailPattern.text) = .ok b
    unfold ValidateRegex.validate
    rw [hvalue, ok_bind]
    exact hmatch
  rw [Accepts, hverdict, Except.ok.injEq, hb, language_emailPattern]

/-- **The rule validates addresses** exactly on the values where every `@` that an address
can be read around has a local part before it and a domain behind it, to both ends. -/
theorem validatesAddress_iff (hsearches : Searches runtime isWord emailPattern)
    (hat : ¬ isWord '@') (hvalue : o.getPropertyValue propertyName = .ok (.string s))
    (message : Option String) :
    ValidatesAddress runtime isWord o (emailRule propertyName message) s
      ↔ ∀ before after, s.toList = before ++ '@' :: after → AroundAt isWord before after →
          before ∈ localPart isWord ∧ after ∈ domain isWord := by
  have haccepts := accepts_emailRule hsearches hvalue message
  constructor
  · intro h before after hs haround
    have hcontains : Contains (address isWord) s.toList := by
      rw [hs]
      exact contains_of_aroundAt haround
    have haddress := h.exact.mp (haccepts.mpr hcontains)
    rw [hs] at haddress
    exact address_split hat haddress
  · intro h
    have hexact : Accepts runtime o (emailRule propertyName message)
        ↔ s.toList ∈ address isWord := by
      rw [haccepts]
      refine ⟨fun hcontains => ?_, contains_of_mem⟩
      obtain ⟨before, after, hs, haround⟩ := contains_address_iff.mp hcontains
      obtain ⟨hbefore, hafter⟩ := h before after hs haround
      exact mem_address_iff.mpr ⟨before, after, hs, hbefore, hafter⟩
    refine ⟨hexact, fun a u b _ _ hnone haccepted => hnone (hexact.mp haccepted), ?_⟩
    intro a u b v c hs hu hv haccepted
    have haddress := hexact.mp haccepted
    rw [hs] at haddress
    exact two_addresses hat hu hv haddress

end Main

/-! ## A search over ASCII letters -/

def asciiWord (c : Char) : Prop := c.isAlphanum = true ∨ c = '_'

instance decidableAsciiWord : DecidablePred asciiWord := fun c =>
  inferInstanceAs (Decidable (c.isAlphanum = true ∨ c = '_'))

/-- It knows the one pattern. -/
def searchAddress (s pattern : String) : Except Exception Bool :=
  if pattern = emailPattern.text then .ok (decide (Contains (address asciiWord) s.toList))
  else .error { type := .argument }

def searchRuntime : Runtime := { exampleRuntime with regexMatch := searchAddress }

theorem searches_searchRuntime : Searches searchRuntime asciiWord emailPattern := by
  intro s
  have hmatch : searchRuntime.regexMatch s emailPattern.text
      = .ok (decide (Contains (address asciiWord) s.toList)) := by
    show searchAddress s emailPattern.text = _
    exact if_pos rfl
  refine ⟨_, hmatch, ?_⟩
  rw [decide_eq_true_iff, language_emailPattern]

/-- An object with an e-mail address. -/
def mailObject (email : String) : BusinessObject :=
  { exampleObject none with
    own := fun name => if name = "Email" then some (.ok (.string email)) else none }

/-- An address is accepted as it should be. -/
theorem validatesAddress_short :
    ValidatesAddress searchRuntime asciiWord (mailObject "a@b.c") (emailRule "Email" none)
      "a@b.c" := by
  have haddress : "a@b.c".toList ∈ address asciiWord := by decide +kernel
  refine (validatesAddress_iff searches_searchRuntime (by decide) rfl none).mpr ?_
  intro before after hs _
  rw [hs] at haddress
  exact address_split (by decide) haddress

/-- An address in brackets is accepted as well. -/
theorem bracketed_accepted :
    Searches searchRuntime asciiWord emailPattern ∧ ¬ asciiWord '@'
      ∧ ¬ ∀ email : String, ValidatesAddress searchRuntime asciiWord (mailObject email)
        (ValidateEmail.new "Email") email := by
  refine ⟨searches_searchRuntime, by decide, fun h => ?_⟩
  have haccepted : Accepts searchRuntime (mailObject "<a@b.c>") (ValidateEmail.new "Email") := by
    decide +kernel
  have haddress := (h "<a@b.c>").exact.mp haccepted
  exact absurd haddress (by decide +kernel)

end CgGuide.EmailRule

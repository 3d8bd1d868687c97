import Mathlib
import ChatApplication.Data.RegEx
import ChatApplication.Data.SplitAtLast

/-!
This module contains the two regular expressions for credentials, and the rules that they stand for.
-/

namespace ChatApplication

-- `[A-Z0-9a-z._%+-]`
def isLocal (c : Char) : Bool :=
  c.isAlphanum || c ∈ ['.', '_', '%', '+', '-']

-- `[A-Za-z0-9.-]`
def isDomain (c : Char) : Bool :=
  c.isAlphanum || c ∈ ['.', '-']

-- `.` matches everything but line terminators
def isDot (c : Char) : Bool :=
  c ∉ ['\n', '\x0b', '\x0c', '\r', '\u0085', '\u2028', '\u2029']

-- `[A-Z0-9a-z._%+-]+@[A-Za-z0-9.-]+\\.[A-Za-z]{2,}`
def emailRegEx : RegEx :=
  .seq (.atLeast 1 isLocal) (.seq (.set (fun c => c = '@')) (.seq (.atLeast 1 isDomain)
    (.seq (.set (fun c => c = '.')) (.atLeast 2 Char.isAlpha))))

-- `(?=.*[A-Z])(?=.*[0-9])(?=.*[a-z]).{6,}`
def passwordRegEx : RegEx :=
  .seq (.lookahead (.seq (.atLeast 0 isDot) (.set Char.isUpper)))
    (.seq (.lookahead (.seq (.atLeast 0 isDot) (.set Char.isDigit)))
      (.seq (.lookahead (.seq (.atLeast 0 isDot) (.set Char.isLower))) (.atLeast 6 isDot)))

def isValidEmail (email : String) : Bool :=
  emailRegEx.fullMatch email.toList

def isValidPassword (password : String) : Bool :=
  passwordRegEx.fullMatch password.toList

-- The rules for an email address. The domain is split at its last dot, so there is only one way to
-- read an address.
def IsEmailAddress (email : List Char) : Prop :=
  email.count '@' = 1
    ∧
  ∃ localPart domain, email = localPart ++ '@' :: domain
    ∧ localPart ≠ [] ∧ (∀ c ∈ localPart, isLocal c)
    ∧ ∃ labels topLevel, domain.splitAtLast '.' = some (labels, topLevel)
      ∧ labels ≠ [] ∧ (∀ c ∈ labels, isDomain c)
      ∧ 2 ≤ topLevel.length ∧ ∀ c ∈ topLevel, c.isAlpha

-- what the expression says, whichever dot it splits at
theorem fullMatch_emailRegEx {email : List Char}
    : emailRegEx.fullMatch email
        ↔
      ∃ localPart labels topLevel, email = localPart ++ '@' :: (labels ++ '.' :: topLevel)
        ∧ localPart ≠ [] ∧ (∀ c ∈ localPart, isLocal c)
        ∧ labels ≠ [] ∧ (∀ c ∈ labels, isDomain c)
        ∧ 2 ≤ topLevel.length ∧ ∀ c ∈ topLevel, c.isAlpha := by
  unfold emailRegEx
  simp only [RegEx.fullMatch_seq_atLeast, RegEx.fullMatch_seq_set, RegEx.fullMatch_atLeast,
    decide_eq_true_eq, Nat.one_le_iff_ne_zero, ne_eq, List.length_eq_zero_iff]
  constructor
  . rintro ⟨localPart, _, hemail, hlocal, hlocals, at', _, hbehind, hat, labels, _, hdomain, hlabels,
      hlabel, dot, topLevel, hrest, hdot, hlength, htopLevel⟩
    refine ⟨localPart, labels, topLevel, ?_, hlocal, hlocals, hlabels, hlabel, hlength, htopLevel⟩
    rw [hemail, hbehind, hat, hdomain, hrest, hdot]
  . rintro ⟨localPart, labels, topLevel, hemail, hlocal, hlocals, hlabels, hlabel, hlength,
      htopLevel⟩
    exact ⟨localPart, _, hemail, hlocal, hlocals, '@', _, rfl, rfl, labels, _, rfl, hlabels, hlabel,
      '.', topLevel, rfl, rfl, hlength, htopLevel⟩

theorem not_mem_of_forall {p : Char → Bool} {cs : List Char} (h : ∀ c ∈ cs, p c) {separator : Char}
    (hseparator : p separator = false) : separator ∉ cs := by
  intro hmem
  rw [h separator hmem] at hseparator
  contradiction

theorem isValidEmail_iff_isEmailAddress (email : String)
    : isValidEmail email ↔ IsEmailAddress email.toList := by
  unfold isValidEmail IsEmailAddress
  rw [fullMatch_emailRegEx]
  constructor
  . rintro ⟨localPart, labels, topLevel, hemail, hlocal, hlocals, hlabels, hlabel, hlength,
      htopLevel⟩
    have hdot : '.' ∉ topLevel := not_mem_of_forall htopLevel rfl
    refine ⟨?_, localPart, labels ++ '.' :: topLevel, hemail, hlocal, hlocals, labels, topLevel,
      List.splitAtLast_append hdot labels, hlabels, hlabel, hlength, htopLevel⟩
    -- none of the parts has an `@` of its own
    rw [hemail, List.count_append, List.count_cons_self, List.count_append,
      List.count_cons_of_ne (by decide), List.count_eq_zero.mpr (not_mem_of_forall hlocals rfl),
      List.count_eq_zero.mpr (not_mem_of_forall hlabel rfl),
      List.count_eq_zero.mpr (not_mem_of_forall htopLevel rfl)]
  . rintro ⟨_, localPart, domain, hemail, hlocal, hlocals, labels, topLevel, hsplit, hlabels, hlabel,
      hlength, htopLevel⟩
    rw [List.splitAtLast_eq_some] at hsplit
    rw [hsplit.left] at hemail
    exact ⟨localPart, labels, topLevel, hemail, hlocal, hlocals, hlabels, hlabel, hlength, htopLevel⟩

example : isValidEmail "ann@mail.co.in" := by decide

theorem isValidPassword_iff {password : String}
    : isValidPassword password
        ↔
      (∃ c ∈ password.toList, c.isUpper) ∧ (∃ c ∈ password.toList, c.isDigit)
        ∧ (∃ c ∈ password.toList, c.isLower)
        ∧ 6 ≤ password.toList.length ∧ ∀ c ∈ password.toList, isDot c := by
  unfold isValidPassword passwordRegEx
  constructor
  . intro h
    have hdot := RegEx.fullMatch_of_seq_lookahead (RegEx.fullMatch_of_seq_lookahead
      (RegEx.fullMatch_of_seq_lookahead h))
    rw [RegEx.fullMatch_atLeast] at hdot
    rw [RegEx.fullMatch_seq_lookahead hdot.right, RegEx.fullMatch_seq_lookahead hdot.right,
      RegEx.fullMatch_seq_lookahead hdot.right, RegEx.fullMatch_atLeast] at h
    exact h
  . intro h
    have hdot := h.right.right.right.right
    rw [RegEx.fullMatch_seq_lookahead hdot, RegEx.fullMatch_seq_lookahead hdot,
      RegEx.fullMatch_seq_lookahead hdot, RegEx.fullMatch_atLeast]
    exact h

-- A text field of a single line has no line terminators, and `.` matches everything else.
theorem isValidPassword_iff_rules (password : String) (h : ∀ c ∈ password.toList, isDot c)
    : isValidPassword password
        ↔
      6 ≤ password.length ∧ (∃ c ∈ password.toList, c.isUpper)
        ∧ (∃ c ∈ password.toList, c.isDigit) ∧ ∃ c ∈ password.toList, c.isLower := by
  rw [isValidPassword_iff, String.length_toList]
  constructor
  . rintro ⟨hupper, hdigit, hlower, hlength, _⟩
    exact ⟨hlength, hupper, hdigit, hlower⟩
  . rintro ⟨hlength, hupper, hdigit, hlower⟩
    exact ⟨hupper, hdigit, hlower, hlength, h⟩

theorem isValidPassword_iff_rules_digitFirst
    : (∀ c ∈ "1 Secret".toList, isDot c)
        ∧ (isValidPassword "1 Secret"
            ↔
          6 ≤ "1 Secret".length ∧ (∃ c ∈ "1 Secret".toList, c.isUpper)
            ∧ (∃ c ∈ "1 Secret".toList, c.isDigit) ∧ ∃ c ∈ "1 Secret".toList, c.isLower) :=
  ⟨by simp [isDot], isValidPassword_iff_rules "1 Secret" (by simp [isDot])⟩

example : isValidPassword "Secret1" := by decide

example : ¬ isValidPassword "secret" := by decide

-- The case of a letter does not matter to a set that has all letters, or none.
theorem toLower_of_forall_isAlpha {p : Char → Bool} {b : Bool} (h : ∀ c : Char, c.isAlpha → p c = b)
    (c : Char) : p c.toLower = p c := by
  by_cases hupper : c.isUpper
  . have halpha : c.isAlpha := by
      rw [Char.isAlpha, hupper, Bool.true_or]
    rw [h c halpha, h c.toLower (by rw [Char.isAlpha_toLower_eq_isAlpha, halpha])]
  . rw [Char.toLower_eq_of_not_isUpper hupper]

theorem respects_toLower_emailRegEx : emailRegEx.Respects Char.toLower := by
  have hseparator : ∀ separator : Char, separator.isAlpha = false → ∀ c : Char,
      decide (c.toLower = separator) = decide (c = separator) := by
    intro separator hseparator
    have hconst : ∀ c : Char, c.isAlpha → decide (c = separator) = false := by
      intro c halpha
      apply decide_eq_false
      intro heq
      rw [heq, hseparator] at halpha
      contradiction
    exact toLower_of_forall_isAlpha hconst
  refine ⟨?_, hseparator '@' rfl, ?_, hseparator '.' rfl, Char.isAlpha_toLower_eq_isAlpha⟩
  . apply toLower_of_forall_isAlpha (b := true)
    intro c halpha
    simp [isLocal, Char.isAlphanum, halpha]
  . apply toLower_of_forall_isAlpha (b := true)
    intro c halpha
    simp [isDomain, Char.isAlphanum, halpha]

-- Firebase Auth does not tell apart emails that differ in the case of letters.
def lowercased (email : String) : List Char :=
  email.toList.map Char.toLower

theorem isValidEmail_eq_of_lowercased_eq {email email' : String}
    (h : lowercased email = lowercased email') : isValidEmail email = isValidEmail email' := by
  unfold isValidEmail
  rw [← RegEx.fullMatch_map respects_toLower_emailRegEx,
    ← RegEx.fullMatch_map respects_toLower_emailRegEx email'.toList]
  exact congrArg emailRegEx.fullMatch h

end ChatApplication

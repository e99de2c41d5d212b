import OpenAgent.Library.Json
import Mathlib.Data.List.TakeWhile
import Mathlib.Tactic.Linarith

/-!
# The numbers that literals denote

A literal denotes an exact decimal.  The literal of a natural number is its
decimal digits, and denotes the number.
-/

namespace OpenAgent.Library

/-- Whether a character starts the exponent of a literal. -/
def isExponentMark (char : Char) : Bool :=
  char == 'e' || char == 'E'

/-- The exponent of a literal, from the text behind its mark. -/
def exponentValue : List Char → Int
  | [] => 0
  | char :: digits =>
    if char = '-' then -(Nat.ofDigitChars 10 digits 0 : Int)
    else if char = '+' then Nat.ofDigitChars 10 digits 0
    else Nat.ofDigitChars 10 (char :: digits) 0

/-- The value of an unsigned literal. -/
def unsignedValue (text : List Char) : ℚ :=
  let mantissa := text.takeWhile (!isExponentMark ·)
  let exponent := (text.dropWhile (!isExponentMark ·)).tail
  let whole := mantissa.takeWhile (· != '.')
  let fraction := (mantissa.dropWhile (· != '.')).tail
  (Nat.ofDigitChars 10 (whole ++ fraction) 0 : ℚ) *
    (10 : ℚ) ^ (exponentValue exponent - fraction.length)

/-- The value of a literal text. -/
def signedValue : List Char → ℚ
  | [] => 0
  | char :: rest =>
    if char = '-' then -unsignedValue rest else unsignedValue (char :: rest)

/-- The value of a literal. -/
def NumberLiteral.value (literal : NumberLiteral) : ℚ :=
  signedValue literal.text

private theorem scanNumber_digits (allDigits : ∀ char ∈ digits, char.isDigit = true) :
    scanNumber .integer digits = some (digits, []) := by
  induction digits with
  | nil => rfl
  | cons char digits ih =>
    have isDigit := allDigits char List.mem_cons_self
    have later := ih fun other member =>
      allDigits other (List.mem_cons_of_mem char member)
    simp [scanNumber, NumberState.next, isDigit, later]

private theorem digitChar_ne_zero :
    ∀ digit, digit < 10 → digit ≠ 0 → Nat.digitChar digit ≠ '0' := by
  decide

variable (number : Nat)

private theorem toDigits_head (positive : 0 < number) :
    ∃ first rest, Nat.toDigits 10 number = first :: rest ∧ first ≠ '0' := by
  induction number using Nat.strong_induction_on with
  | _ number ih =>
    by_cases small : number < 10
    · refine ⟨number.digitChar, [], Nat.toDigits_of_lt_base small, ?_⟩
      exact digitChar_ne_zero number small (by omega)
    · obtain ⟨first, rest, digits, notZero⟩ :=
        ih (number / 10) (by omega) (by omega)
      refine ⟨first, rest ++ [(number % 10).digitChar], ?_, notZero⟩
      rw [Nat.toDigits_of_base_le (by decide) (by omega), digits]
      rfl

private theorem scanNumber_toDigits :
    scanNumber .start (Nat.toDigits 10 number) = some (Nat.toDigits 10 number, []) := by
  have allDigits : ∀ char ∈ Nat.toDigits 10 number, char.isDigit = true := by
    intro char member
    exact Nat.isDigit_of_mem_toDigits (by decide) (by decide) member
  by_cases zero : number = 0
  · subst zero
    decide
  · obtain ⟨first, rest, digits, notZero⟩ := toDigits_head number (by omega)
    rw [digits] at allDigits ⊢
    have isDigit := allDigits first List.mem_cons_self
    have notMinus : first ≠ '-' := by
      rintro rfl
      exact absurd isDigit (by decide)
    have later := scanNumber_digits fun char member =>
      allDigits char (List.mem_cons_of_mem first member)
    simp [scanNumber, NumberState.next, notMinus, notZero, isDigit, later]

/-- The literal of a natural number. -/
def naturalLiteral : NumberLiteral where
  text := Nat.toDigits 10 number
  wellFormed := scanNumber_toDigits number

private theorem takeWhile_digits {digits : List Char}
    (kept : ∀ char, char.isDigit = true → keep char = true)
    (allDigits : ∀ char ∈ digits, char.isDigit = true) :
    digits.takeWhile keep = digits ∧ digits.dropWhile keep = [] := by
  constructor
  · exact List.takeWhile_eq_self_iff.mpr fun char member =>
      kept char (allDigits char member)
  · exact List.dropWhile_eq_nil_iff.mpr fun char member =>
      kept char (allDigits char member)

@[simp] theorem value_naturalLiteral : (naturalLiteral number).value = number := by
  have allDigits : ∀ char ∈ Nat.toDigits 10 number, char.isDigit = true := by
    intro char member
    exact Nat.isDigit_of_mem_toDigits (by decide) (by decide) member
  have noMark : ∀ char : Char, char.isDigit = true → (!isExponentMark char) = true := by
    intro char isDigit
    unfold isExponentMark
    by_cases lower : char = 'e'
    · subst lower
      exact absurd isDigit (by decide)
    · by_cases upper : char = 'E'
      · subst upper
        exact absurd isDigit (by decide)
      · simp [lower, upper]
  have noPoint : ∀ char : Char, char.isDigit = true → (char != '.') = true := by
    intro char isDigit
    by_cases point : char = '.'
    · subst point
      exact absurd isDigit (by decide)
    · simp [point]
  have unsigned : unsignedValue (Nat.toDigits 10 number) = number := by
    obtain ⟨mantissa, noExponent⟩ := takeWhile_digits noMark allDigits
    obtain ⟨whole, noFraction⟩ := takeWhile_digits noPoint allDigits
    simp [unsignedValue, mantissa, noExponent, whole, noFraction, exponentValue]
  change signedValue (Nat.toDigits 10 number) = number
  cases digits : Nat.toDigits 10 number with
  | nil => exact absurd digits Nat.toDigits_ne_nil
  | cons first rest =>
    have notMinus : first ≠ '-' := by
      rintro rfl
      exact absurd (allDigits '-' (digits ▸ List.mem_cons_self)) (by decide)
    rw [signedValue, if_neg notMinus, ← digits, unsigned]

end OpenAgent.Library

/-!
# Numerals

Natural numbers and integers written in decimal and hexadecimal, and signed
decimal numerals read back. A numeral is an optional sign and at least one
ASCII digit; leading zeros are allowed. `readInt_decimalIntDigits` says that reading
gives back the number that was written.
-/

namespace Breakpoints.Text

def decimalDigits (n : Nat) : List Char := Nat.toDigits 10 n

def decimal (n : Nat) : String := String.ofList (decimalDigits n)

/-- A minus sign comes before the magnitude of a negative number. -/
def decimalIntDigits : Int → List Char
  | .ofNat n => decimalDigits n
  | .negSucc n => '-' :: decimalDigits (n + 1)

def decimalInt (n : Int) : String := String.ofList (decimalIntDigits n)

/-- Lower-case digits after `0x`. -/
def hexadecimal (n : Nat) : String := String.ofList ('0' :: 'x' :: Nat.toDigits 16 n)

/-- The number that a nonempty run of digits denotes. -/
def readNat (cs : List Char) : Option Nat :=
  if !cs.isEmpty && cs.all Char.isDigit then some (Nat.ofDigitChars 10 cs 0) else none

/-- The number that a numeral with an optional sign denotes. -/
def readInt : List Char → Option Int
  | '-' :: cs => (readNat cs).map fun n => -(n : Int)
  | '+' :: cs => (readNat cs).map Int.ofNat
  | cs => (readNat cs).map Int.ofNat

theorem isDigit_of_mem_decimalDigits {n : Nat} {c : Char} (h : c ∈ decimalDigits n) :
    c.isDigit = true :=
  Nat.isDigit_of_mem_toDigits (by decide) (by decide) h

theorem decimalDigits_ne_nil (n : Nat) : decimalDigits n ≠ [] := Nat.toDigits_ne_nil

@[simp] theorem readNat_decimalDigits (n : Nat) : readNat (decimalDigits n) = some n := by
  have hall : (decimalDigits n).all Char.isDigit = true :=
    List.all_eq_true.2 fun _ h => isDigit_of_mem_decimalDigits h
  have hne : (decimalDigits n).isEmpty = false := by
    simpa [List.isEmpty_eq_false_iff] using decimalDigits_ne_nil n
  have hval : Nat.ofDigitChars 10 (decimalDigits n) 0 = n :=
    Nat.ofDigitChars_toDigits (by decide) (by decide)
  simp [readNat, hall, hne, hval]

theorem readInt_of_isDigit {c : Char} {cs : List Char} (h : c.isDigit = true) :
    readInt (c :: cs) = (readNat (c :: cs)).map Int.ofNat := by
  unfold readInt
  split
  · next heq => cases heq; exact absurd h (by decide)
  · next heq => cases heq; exact absurd h (by decide)
  · rfl

@[simp] theorem readInt_decimalIntDigits (n : Int) : readInt (decimalIntDigits n) = some n := by
  cases n with
  | ofNat n =>
    cases h : decimalDigits n with
    | nil => exact absurd h (decimalDigits_ne_nil n)
    | cons c cs =>
      have hc : c.isDigit = true := isDigit_of_mem_decimalDigits (n := n) (by simp [h])
      rw [decimalIntDigits, h, readInt_of_isDigit hc, ← h, readNat_decimalDigits]
      rfl
  | negSucc n => simp [decimalIntDigits, readInt, Int.negSucc_eq]

end Breakpoints.Text

import Sigil.Text.Basic

/-!
Whole numbers in decimal notation. A natural number is one or more ASCII digits, leading zeros
allowed; an integer may have a sign before them. Writing uses no leading zero and no plus sign,
and what was written is read back.
-/
namespace Sigil.Numeral

def isDigits (text : Text) : Bool := !text.isEmpty && text.all Char.isDigit

def readNat (text : Text) : Option Nat :=
  if isDigits text then some (Nat.ofDigitChars 10 text 0) else none

def writeNat (n : Nat) : Text := Nat.toDigits 10 n

def readInt (text : Text) : Option Int :=
  match text with
  | '-' :: digits => (readNat digits).map fun n => -(n : Int)
  | '+' :: digits => (readNat digits).map Int.ofNat
  | digits => (readNat digits).map Int.ofNat

def writeInt : Int → Text
  | .ofNat n => writeNat n
  | .negSucc n => '-' :: writeNat (n + 1)

def readInt64 (text : Text) : Option Int64 :=
  match readInt text with
  | some n => if Int64.minValue.toInt ≤ n ∧ n ≤ Int64.maxValue.toInt then some (Int64.ofInt n) else none
  | none => none

def writeInt64 (n : Int64) : Text := writeInt n.toInt

def readCount (text : Text) : Option Nat :=
  let digits := match text with
    | '+' :: rest => rest
    | other => other
  match readNat digits with
  | some n => if n < UInt64.size then some n else none
  | none => none

theorem isDigitsWriteNat (n : Nat) : isDigits (writeNat n) = true := by
  have filled : writeNat n ≠ [] := Nat.toDigits_ne_nil
  simp only [isDigits, Bool.and_eq_true, Bool.not_eq_true', List.isEmpty_eq_false_iff, List.all_eq_true]
  exact ⟨filled, fun c mem => Nat.isDigit_of_mem_toDigits (by decide) (by decide) mem⟩

theorem readNatWriteNat (n : Nat) : readNat (writeNat n) = some n := by
  rw [readNat, if_pos (isDigitsWriteNat n), writeNat, Nat.ofDigitChars_toDigits (by decide) (by decide)]

theorem writeNatHead {n : Nat} {c : Char} {rest : Text} (h : writeNat n = c :: rest) : c.isDigit = true := by
  have digits := isDigitsWriteNat n
  simp only [h, isDigits, List.all_cons, Bool.and_eq_true] at digits
  exact digits.2.1

theorem readIntWriteInt (n : Int) : readInt (writeInt n) = some n := by
  cases n with
  | ofNat n =>
    simp only [writeInt, readInt]
    split
    · rename_i h; exact absurd (writeNatHead h) (by decide)
    · rename_i h; exact absurd (writeNatHead h) (by decide)
    · simp [readNatWriteNat]
  | negSucc n => simp [writeInt, readInt, readNatWriteNat, Int.negSucc_eq]

theorem readInt64WriteInt64 (n : Int64) : readInt64 (writeInt64 n) = some n := by
  have low := Int64.minValue_le_toInt n
  have high := Int64.toInt_le n
  simp only [readInt64, writeInt64, readIntWriteInt]
  rw [if_pos ⟨low, high⟩]
  simp

end Sigil.Numeral

import VideoGateway.Text.Cut

/-!
# Integers in decimal notation

Writing integers in decimal digits and reading unsigned ones back. A leading
plus sign is accepted, a minus sign or a value above the bound is not.
-/
namespace VideoGateway.Text

/-- One or more decimal digits and nothing else. -/
def isDigits (cs : List Char) : Bool :=
  !cs.isEmpty && cs.all Char.isDigit

def natText (n : Nat) : String :=
  String.ofList (Nat.toDigits 10 n)

/-- The decimal digits of an integer, after a minus sign when it is negative. -/
def intText : Int → String
  | .ofNat n => natText n
  | .negSucc n => "-" ++ natText (n + 1)

/-- The value of a list of digits, with an optional plus sign, up to `bound`. -/
def readDigits? (bound : Nat) (cs : List Char) : Option Nat :=
  let digits := (afterStart? ['+'] cs).getD cs
  let n := Nat.ofDigitChars 10 digits 0
  if isDigits digits && decide (n ≤ bound) then some n else none

/-- Reads an unsigned decimal number that is at most `bound`. -/
def readNat? (bound : Nat) (s : String) : Option Nat :=
  readDigits? bound s.toList

/-- The digits of a number have no sign and read back as the number. -/
theorem readDigits?_toDigits {bound n : Nat} (h : n ≤ bound) :
    readDigits? bound (Nat.toDigits 10 n) = some n := by
  have digits : ∀ c ∈ Nat.toDigits 10 n, c.isDigit = true := fun c hc =>
    Nat.isDigit_of_mem_toDigits (by decide) (by decide) hc
  have noSign : afterStart? ['+'] (Nat.toDigits 10 n) = none := by
    match e : Nat.toDigits 10 n with
    | [] => rfl
    | c :: cs =>
      have hc : c.isDigit = true := digits c (by simp [e])
      have : ¬ '+' = c := by rintro rfl; exact absurd hc (by decide)
      simp [afterStart?, this]
  have nonempty : Nat.toDigits 10 n ≠ [] := Nat.toDigits_ne_nil
  have value : Nat.ofDigitChars 10 (Nat.toDigits 10 n) 0 = n := Nat.ofDigitChars_ten_toDigits
  have all : (Nat.toDigits 10 n).all Char.isDigit = true := by simpa using digits
  simp [readDigits?, noSign, value, isDigits, all, nonempty, h]

theorem readNat?_natText {bound n : Nat} (h : n ≤ bound) :
    readNat? bound (natText n) = some n := by
  simp [readNat?, natText, readDigits?_toDigits h]

end VideoGateway.Text

import VideoGateway.Binary64.Literal
import VideoGateway.Json.Basic
import VideoGateway.Text.Utf8
import VideoGateway.Word

/-!
# Tokens of JSON texts

A token is read from the front of a byte sequence, after the blanks of JSON.
Numbers and strings are checked against the grammar here; whether a number is
within range and a string is a text shows in the token, since a document may
hold such a token where nothing reads it.
-/
namespace VideoGateway.Json

inductive Token where
  | openBrace
  | closeBrace
  | openBracket
  | closeBracket
  | comma
  | colon
  | null
  | bool (b : Bool)
  | number (value : Option Number)
  | string (value : Option String)

namespace Token

/-- Space, tab, line feed and carriage return. -/
def isBlank (b : UInt8) : Bool :=
  b == 0x20 || b == 0x09 || b == 0x0A || b == 0x0D

def isDigit (b : UInt8) : Bool :=
  0x30 ≤ b && b ≤ 0x39

def hexValue? (b : UInt8) : Option Nat :=
  if isDigit b then some (b.toNat - 0x30)
  else if 0x41 ≤ b && b ≤ 0x46 then some (b.toNat - 0x37)
  else if 0x61 ≤ b && b ≤ 0x66 then some (b.toNat - 0x57)
  else none

/-- The longest front of a byte sequence whose octets are all in a class, and
the rest. -/
def takeWhile (p : UInt8 → Bool) (bs : Bytes) : Bytes × Bytes :=
  (bs.takeWhile p, bs.dropWhile p)

theorem takeWhile_length (p : UInt8 → Bool) (bs : Bytes) :
    (takeWhile p bs).1.length + (takeWhile p bs).2.length = bs.length := by
  rw [takeWhile, ← List.length_append, List.takeWhile_append_dropWhile]

/-- A piece of a string: an octet, or the number of a `\u` escape. -/
inductive Piece where
  | octet (b : UInt8)
  | unit (n : Nat)

/-- The octet that a one-letter escape stands for. -/
def escaped? (b : UInt8) : Option UInt8 :=
  if b == 0x22 then some 0x22
  else if b == 0x5C then some 0x5C
  else if b == 0x2F then some 0x2F
  else if b == 0x62 then some 0x08
  else if b == 0x66 then some 0x0C
  else if b == 0x6E then some 0x0A
  else if b == 0x72 then some 0x0D
  else if b == 0x74 then some 0x09
  else none

def hexUnit? (a b c d : UInt8) : Option Nat := do
  let a ← hexValue? a
  let b ← hexValue? b
  let c ← hexValue? c
  let d ← hexValue? d
  pure (((a * 16 + b) * 16 + c) * 16 + d)

/-- The pieces of a string after its opening quote, and what follows the closing
one. Control characters are refused, as are escapes that JSON does not have. -/
def pieces? (done : List Piece) : Bytes → Option (List Piece × Bytes)
  | [] => none
  | 0x22 :: rest => some (done.reverse, rest)
  | 0x5C :: 0x75 :: a :: b :: c :: d :: rest =>
    match hexUnit? a b c d with
    | some n => pieces? (.unit n :: done) rest
    | none => none
  | 0x5C :: e :: rest =>
    match escaped? e with
    | some b => pieces? (.octet b :: done) rest
    | none => none
  | b :: rest => if b < 0x20 || b == 0x5C then none else pieces? (.octet b :: done) rest

theorem pieces?_length {done : List Piece} {bs : Bytes} {ps : List Piece} {rest : Bytes}
    (h : pieces? done bs = some (ps, rest)) : rest.length < bs.length := by
  induction done, bs using pieces?.induct with
  | case1 => simp [pieces?] at h
  | case2 done tail =>
    simp only [pieces?, Option.some.injEq, Prod.mk.injEq] at h
    simp [h.2]
  | case3 done a b c d tail n hn ih =>
    rw [pieces?, hn] at h
    have := ih h
    simp only [List.length_cons]
    omega
  | case4 done a b c d tail hn =>
    rw [pieces?, hn] at h
    simp at h
  | case5 done e tail hne b hb ih =>
    rw [pieces?, hb] at h
    · have := ih h
      simp only [List.length_cons]
      omega
    · exact hne
  | case6 done e tail hne hb =>
    rw [pieces?, hb] at h
    · simp at h
    · exact hne
  | case7 done b tail h1 h2 h3 hb =>
    rw [pieces?] at h
    · simp [hb] at h
    all_goals assumption
  | case8 done b tail h1 h2 h3 hb ih =>
    rw [pieces?] at h
    · simp only [hb, Bool.false_eq_true, ↓reduceIte] at h
      have := ih h
      simp only [List.length_cons]
      omega
    all_goals assumption

def isLeadingSurrogate (n : Nat) : Bool := 0xD800 ≤ n && n ≤ 0xDBFF

def isTrailingSurrogate (n : Nat) : Bool := 0xDC00 ≤ n && n ≤ 0xDFFF

/-- The octets of the pieces of a string. Surrogates must come in pairs. -/
def octets? (done : List Bytes) : List Piece → Option Bytes
  | [] => some done.reverse.flatten
  | .octet b :: ps => octets? ([b] :: done) ps
  | .unit hi :: .unit lo :: ps =>
    if isLeadingSurrogate hi then
      if isTrailingSurrogate lo then
        let n := 0x10000 + (hi - 0xD800) * 0x400 + (lo - 0xDC00)
        octets? (String.utf8EncodeChar (Char.ofNat n) :: done) ps
      else none
    else if isTrailingSurrogate hi then none
    else octets? (String.utf8EncodeChar (Char.ofNat hi) :: done) (.unit lo :: ps)
  | .unit n :: ps =>
    if isLeadingSurrogate n || isTrailingSurrogate n then none
    else octets? (String.utf8EncodeChar (Char.ofNat n) :: done) ps

def text? (ps : List Piece) : Option String :=
  (octets? [] ps).bind Text.Utf8.decode?

def digitChars (bs : Bytes) : List Char :=
  bs.map fun b => Char.ofNat b.toNat

/-- The fraction of a number: the digits after a point, or none at all. -/
def fraction? : Bytes → Option (Bytes × Bytes)
  | 0x2E :: rest =>
    let (digits, rest) := takeWhile isDigit rest
    if digits.isEmpty then none else some (digits, rest)
  | bs => some ([], bs)

/-- Whether a sequence begins with a minus sign, and what follows its sign. -/
def sign : Bytes → Bool × Bytes
  | 0x2B :: rest => (false, rest)
  | 0x2D :: rest => (true, rest)
  | rest => (false, rest)

def exponent? : Bytes → Option (Option Int × Bytes)
  | [] => some (none, [])
  | b :: rest =>
    if b == 0x65 || b == 0x45 then
      let (negative, rest) := sign rest
      let (digits, rest) := takeWhile isDigit rest
      if digits.isEmpty then none
      else
        let n : Int := Nat.ofDigitChars 10 (digitChars digits) 0
        some (some (if negative then -n else n), rest)
    else some (none, b :: rest)

/-- The value of a number. Without fraction and exponent it is an integer when
it fits in 64 bits, signed if negative; minus zero and all others are binary64
values. -/
def numberValue (negative : Bool) (whole fraction : Bytes) (exponent : Option Int) :
    Option Number :=
  let (n, unkept) := Binary64.takeDigits 0 (digitChars whole)
  let integral := fraction.isEmpty && exponent.isNone && unkept.isEmpty
  if integral && !negative then some (.int n)
  else if integral && 1 ≤ n && Word.leastSigned64 ≤ -n then some (.int (-n))
  else
    let (n, unread) := Binary64.takeDigits n (digitChars fraction)
    let read : Int := fraction.length - unread.length
    (Binary64.ofParts? negative n (unkept.length - read + exponent.getD 0)).map .real

/-- A number after its sign. -/
def number? (negative : Bool) (bs : Bytes) : Option (Token × Bytes) :=
  let (whole, rest) := takeWhile isDigit bs
  match whole with
  | [] => none
  | first :: more =>
    if first == 0x30 && !more.isEmpty then none
    else
      match fraction? rest with
      | none => none
      | some (fraction, rest) =>
        match exponent? rest with
        | none => none
        | some (exponent, rest) =>
          some (.number (numberValue negative whole fraction exponent), rest)

/-- The token at the front of a byte sequence that starts with no blank. -/
def readHere? : Bytes → Option (Token × Bytes)
  | [] => none
  | 0x7B :: rest => some (.openBrace, rest)
  | 0x7D :: rest => some (.closeBrace, rest)
  | 0x5B :: rest => some (.openBracket, rest)
  | 0x5D :: rest => some (.closeBracket, rest)
  | 0x2C :: rest => some (.comma, rest)
  | 0x3A :: rest => some (.colon, rest)
  | 0x22 :: rest => (pieces? [] rest).map fun (ps, rest) => (.string (text? ps), rest)
  | 0x6E :: 0x75 :: 0x6C :: 0x6C :: rest => some (.null, rest)
  | 0x74 :: 0x72 :: 0x75 :: 0x65 :: rest => some (.bool true, rest)
  | 0x66 :: 0x61 :: 0x6C :: 0x73 :: 0x65 :: rest => some (.bool false, rest)
  | 0x2D :: rest => number? true rest
  | b :: rest => if isDigit b then number? false (b :: rest) else none

/-- The first token of a byte sequence and what follows it; `none` when there is
no token or a fault in it. -/
def read? (bs : Bytes) : Option (Token × Bytes) :=
  readHere? (bs.dropWhile isBlank)

theorem fraction?_length {bs digits rest : Bytes} (h : fraction? bs = some (digits, rest)) :
    rest.length ≤ bs.length := by
  unfold fraction? at h
  split at h
  · rename_i tail
    have := takeWhile_length isDigit tail
    dsimp only at h
    split at h
    · simp at h
    · simp only [Option.some.injEq, Prod.mk.injEq] at h
      rw [← h.2, List.length_cons]
      omega
  · simp only [Option.some.injEq, Prod.mk.injEq] at h
    simp [h.2]

theorem sign_length (bs : Bytes) : (sign bs).2.length ≤ bs.length := by
  unfold sign
  split <;> simp

theorem exponent?_length {bs rest : Bytes} {e : Option Int} (h : exponent? bs = some (e, rest)) :
    rest.length ≤ bs.length := by
  cases bs with
  | nil =>
    simp only [exponent?, Option.some.injEq, Prod.mk.injEq] at h
    simp [← h.2]
  | cons b tail =>
    have hs := sign_length tail
    have hw := takeWhile_length isDigit (sign tail).2
    simp only [exponent?] at h
    split at h
    · split at h
      · simp at h
      · simp only [Option.some.injEq, Prod.mk.injEq] at h
        rw [← h.2, List.length_cons]
        omega
    · simp only [Option.some.injEq, Prod.mk.injEq] at h
      simp [← h.2]

theorem number?_length {negative : Bool} {bs : Bytes} {t : Token} {rest : Bytes}
    (h : number? negative bs = some (t, rest)) : rest.length < bs.length := by
  have hw := takeWhile_length isDigit bs
  unfold number? at h
  dsimp only at h
  split at h
  · simp at h
  · rename_i whole
    rw [whole, List.length_cons] at hw
    split at h
    · simp at h
    · split at h
      · simp at h
      · rename_i hf
        split at h
        · simp at h
        · rename_i he
          simp only [Option.some.injEq, Prod.mk.injEq] at h
          have h1 := fraction?_length hf
          have h2 := exponent?_length he
          rw [← h.2]
          omega

theorem readHere?_length {bs : Bytes} {t : Token} {rest : Bytes}
    (h : readHere? bs = some (t, rest)) : rest.length < bs.length := by
  unfold readHere? at h
  split at h
  case h_8 tail =>
    simp only [Option.map_eq_some_iff, Prod.exists, Prod.mk.injEq] at h
    obtain ⟨ps, r, hp, _, rfl⟩ := h
    have := pieces?_length hp
    simp only [List.length_cons]
    omega
  case h_12 tail =>
    have := number?_length h
    simp only [List.length_cons]
    omega
  case h_13 =>
    split at h
    · exact number?_length h
    · simp at h
  all_goals
    first
      | (simp at h; done)
      | (simp only [Option.some.injEq, Prod.mk.injEq] at h
         simp only [← h.2, List.length_cons]
         omega)

/-- Every token is at least one octet long. -/
theorem read?_length {bs : Bytes} {t : Token} {rest : Bytes} (h : read? bs = some (t, rest)) :
    rest.length < bs.length :=
  Nat.lt_of_lt_of_le (readHere?_length h) (List.dropWhile_suffix isBlank).length_le

end Token

end VideoGateway.Json

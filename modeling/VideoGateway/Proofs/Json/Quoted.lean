import VideoGateway.Proofs.Json.Numeral

/-!
# Quoted texts are read again

A text is written character by character: as its octets, as an escape of one
letter, or as the number of a control character. Each way is read back as the
octets of the character.
-/
namespace VideoGateway.Json

open Token (Piece pieces? octets? hexValue? hexUnit?)
open Text.Utf8 (encodeChar_of_ascii le_of_mem_encodeChar)

/-- An octet that stands for itself inside a string. -/
structure Plain (b : UInt8) : Prop where
  printed : 0x20 ≤ b.toNat
  noQuote : b ≠ 0x22
  noEscape : b ≠ 0x5C

theorem Plain.of_le {b : UInt8} (h : 0x80 ≤ b.toNat) : Plain b := by
  refine ⟨by omega, ?_, ?_⟩
  · rintro rfl
    exact absurd h (by decide)
  · rintro rfl
    exact absurd h (by decide)

theorem plain_encodeChar {c : Char} (hcontrol : ¬ c.toNat < 0x20) (hquote : c ≠ '"')
    (hescape : c ≠ '\\') : ∀ b ∈ String.utf8EncodeChar c, Plain b := by
  intro b hb
  by_cases hascii : c.toNat < 0x80
  · rw [encodeChar_of_ascii hascii, List.mem_singleton] at hb
    have htoNat : b.toNat = c.toNat := by
      rw [hb, Text.Utf8.toNat_octet (by omega)]
    refine ⟨by omega, ?_, ?_⟩
    · rintro rfl
      exact hquote (Char.toNat_inj.mp htoNat.symm)
    · rintro rfl
      exact hescape (Char.toNat_inj.mp htoNat.symm)
  · exact .of_le (le_of_mem_encodeChar hascii b hb)

/-- What a character inside a string is read as: the number of an escape, or the
octets of the character. -/
def charPieces (c : Char) : List Piece :=
  if c.toNat < 0x20 ∧ c ∉ ['\n', '\r', '\t', Char.ofNat 0x08, Char.ofNat 0x0C] then [.unit c.toNat]
  else (String.utf8EncodeChar c).map .octet

theorem pieces?_plain {b : UInt8} (h : Plain b) (done : List Piece) (rest : Bytes) :
    pieces? done (b :: rest) = pieces? (.octet b :: done) rest := by
  have hprinted : (b < 0x20 || b == 0x5C) = false := by
    have hlt : ¬ b < 0x20 := by
      rw [UInt8.lt_iff_toNat_lt]
      exact Nat.not_lt.mpr h.printed
    simp [hlt, h.noEscape]
  rw [pieces?]
  · simp only [hprinted, Bool.false_eq_true, ↓reduceIte]
  · exact h.noQuote
  · intro _ _ _ _ _ heq
    exact absurd heq h.noEscape
  · intro _ _ heq
    exact absurd heq h.noEscape

theorem pieces?_plains {bs : Bytes} (h : ∀ b ∈ bs, Plain b) (done : List Piece) (rest : Bytes) :
    pieces? done (bs ++ rest) = pieces? ((bs.map .octet).reverse ++ done) rest := by
  induction bs generalizing done with
  | nil => rfl
  | cons b bs ih =>
    rw [List.forall_mem_cons] at h
    rw [List.cons_append, pieces?_plain h.1, ih h.2, List.map_cons, List.reverse_cons,
      List.append_assoc, List.singleton_append]

theorem hexValue?_hexDigit : ∀ n, n < 16 →
    (hexDigit n).toNat < 0x80 ∧ hexValue? (UInt8.ofNat (hexDigit n).toNat) = some n := by
  decide

theorem pieces?_control {n : Nat} (h : n < 0x20) (done : List Piece) (rest : Bytes) :
    pieces? done (octets ['\\', 'u', '0', '0', hexDigit (n / 16), hexDigit (n % 16)] ++ rest) =
      pieces? (.unit n :: done) rest := by
  obtain ⟨hhigh, hhighValue⟩ := hexValue?_hexDigit (n / 16) (by omega)
  obtain ⟨hlow, hlowValue⟩ := hexValue?_hexDigit (n % 16) (by omega)
  have hzero : hexValue? 0x30 = some 0 := rfl
  have hunit : hexUnit? 0x30 0x30 (UInt8.ofNat (hexDigit (n / 16)).toNat)
      (UInt8.ofNat (hexDigit (n % 16)).toNat) = some n := by
    have hsum : ((0 * 16 + 0) * 16 + n / 16) * 16 + n % 16 = n := by omega
    simp only [hexUnit?, hzero, hhighValue, hlowValue, Option.bind_eq_bind, Option.bind_some,
      Option.pure_def, hsum]
  have htext : octets ['\\', 'u', '0', '0', hexDigit (n / 16), hexDigit (n % 16)] ++ rest =
      0x5C :: 0x75 :: 0x30 :: 0x30 :: UInt8.ofNat (hexDigit (n / 16)).toNat ::
        UInt8.ofNat (hexDigit (n % 16)).toNat :: rest := by
    simp only [octets_cons, octets_nil, encodeChar_of_ascii hhigh, encodeChar_of_ascii hlow]
    rfl
  rw [htext, pieces?, hunit]

theorem pieces?_escapeChar (c : Char) (done : List Piece) (rest : Bytes) :
    pieces? done (octets (escapeChar c) ++ rest) =
      pieces? ((charPieces c).reverse ++ done) rest := by
  by_cases hletter : c ∈ ['"', '\\', '\n', '\r', '\t', Char.ofNat 0x08, Char.ofNat 0x0C]
  · simp only [List.mem_cons, List.not_mem_nil, or_false] at hletter
    rcases hletter with rfl | rfl | rfl | rfl | rfl | rfl | rfl <;> rfl
  · simp only [List.mem_cons, List.not_mem_nil, or_false, not_or] at hletter
    obtain ⟨hquote, hescape, hfeed, hreturn, htab, hback, hform⟩ := hletter
    have hback' : ¬ c.toNat = 0x08 := fun h => hback (Char.toNat_inj.mp h)
    have hform' : ¬ c.toNat = 0x0C := fun h => hform (Char.toNat_inj.mp h)
    unfold escapeChar charPieces
    by_cases hcontrol : c.toNat < 0x20
    · simp only [hquote, hescape, hfeed, hreturn, htab, hback, hform, hback', hform', hcontrol,
        List.mem_cons, List.not_mem_nil, or_self, not_false_eq_true, and_self, ↓reduceIte]
      exact pieces?_control hcontrol done rest
    · simp only [hquote, hescape, hfeed, hreturn, htab, hback', hform', hcontrol, false_and,
        ↓reduceIte, octets_cons, octets_nil, List.append_nil]
      exact pieces?_plains (plain_encodeChar hcontrol hquote hescape) done rest

theorem octets?_octets (bs : Bytes) (done : List Bytes) (more : List Piece) :
    octets? done (bs.map .octet ++ more) = octets? ((bs.map fun b => [b]).reverse ++ done) more := by
  induction bs generalizing done with
  | nil => rfl
  | cons b bs ih =>
    rw [List.map_cons, List.cons_append, octets?, ih, List.map_cons, List.reverse_cons,
      List.append_assoc, List.singleton_append]

/-- The number of a control character stands for itself, whatever comes next. -/
theorem octets?_control {n : Nat} (h : n < 0x20) (done : List Bytes) (more : List Piece) :
    octets? done (.unit n :: more) = octets? (String.utf8EncodeChar (Char.ofNat n) :: done) more := by
  have hleading : Token.isLeadingSurrogate n = false := by
    simp only [Token.isLeadingSurrogate, Bool.and_eq_false_iff, decide_eq_false_iff_not]
    omega
  have htrailing : Token.isTrailingSurrogate n = false := by
    simp only [Token.isTrailingSurrogate, Bool.and_eq_false_iff, decide_eq_false_iff_not]
    omega
  cases more with
  | nil => simp [octets?, hleading, htrailing]
  | cons piece more => cases piece <;> simp [octets?, hleading, htrailing]

theorem octets?_charPieces (c : Char) : ∃ parts : List Bytes,
    parts.flatten = String.utf8EncodeChar c ∧ ∀ done more,
      octets? done (charPieces c ++ more) = octets? (parts.reverse ++ done) more := by
  unfold charPieces
  split
  · next h =>
    refine ⟨[String.utf8EncodeChar c], List.flatten_singleton, fun done more => ?_⟩
    rw [List.singleton_append, octets?_control h.1, Char.ofNat_toNat]
    rfl
  · refine ⟨(String.utf8EncodeChar c).map fun b => [b], ?_, octets?_octets _⟩
    rw [← List.flatMap_def, List.flatMap_singleton']

theorem octets?_flatMap (cs : List Char) (done : List Bytes) :
    octets? done (cs.flatMap charPieces) = some (done.reverse.flatten ++ octets cs) := by
  induction cs generalizing done with
  | nil => simp [octets?]
  | cons c cs ih =>
    obtain ⟨parts, hparts, hread⟩ := octets?_charPieces c
    rw [List.flatMap_cons, hread, ih, List.reverse_append, List.reverse_reverse,
      List.flatten_append, hparts, List.append_assoc, octets_cons]

theorem pieces?_quoted (cs : List Char) (done : List Piece) (rest : Bytes) :
    pieces? done (octets (cs.flatMap escapeChar ++ ['"']) ++ rest) =
      some (done.reverse ++ cs.flatMap charPieces, rest) := by
  induction cs generalizing done with
  | nil =>
    rw [List.flatMap_nil, List.flatMap_nil, List.append_nil]
    rfl
  | cons c cs ih =>
    rw [List.flatMap_cons, List.append_assoc, octets_append, List.append_assoc,
      pieces?_escapeChar, ih, List.flatMap_cons, List.reverse_append, List.reverse_reverse,
      List.append_assoc]

/-- A quoted text is read as the text. -/
theorem read?_quote (s : String) (rest : Bytes) :
    Token.read? (octets (quote s) ++ rest) = some (.string (some s), rest) := by
  have htext : Token.text? (s.toList.flatMap charPieces) = some s := by
    rw [Token.text?, octets?_flatMap]
    exact Text.Utf8.decode?_encode s
  have hopen : octets (quote s) ++ rest =
      0x22 :: (octets (s.toList.flatMap escapeChar ++ ['"']) ++ rest) := rfl
  have hpieces := pieces?_quoted s.toList [] rest
  rw [List.reverse_nil, List.nil_append] at hpieces
  have hread : ∀ tail, Token.read? (0x22 :: tail) =
      (pieces? [] tail).map fun p => (.string (Token.text? p.1), p.2) := fun _ => rfl
  rw [hopen, hread, hpieces, Option.map_some, htext]

end VideoGateway.Json

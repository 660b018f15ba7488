import Mathlib.Data.Bool.AllAny
import VideoGateway.Text.Percent
import VideoGateway.Proofs.Text.Utf8

/-!
# Escaped texts come back

Where the percent sign itself is escaped, or does not occur, each triple stands for an octet and
every other character for itself, so the text comes back and no two texts look the same. A text
without octets to be escaped stays as it is, and any other gets longer.
-/
namespace VideoGateway.Text.Percent

open Utf8 (encodeChar_of_ascii)

variable {escaped : UInt8 → Bool} {b : UInt8} {bs : Bytes} {c : Char} {s t : String}

def Written (escaped : UInt8 → Bool) (b : UInt8) : Bool :=
  escaped b || 0x80 ≤ b

theorem encodeBytes_cons (escaped : UInt8 → Bool) (b : UInt8) (bs : Bytes) :
    encodeBytes escaped (b :: bs) =
      (if Written escaped b then triple b else [Char.ofNat b.toNat]) ++ encodeBytes escaped bs :=
  rfl

theorem encodeBytes_append (escaped : UInt8 → Bool) (bs cs : Bytes) :
    encodeBytes escaped (bs ++ cs) = encodeBytes escaped bs ++ encodeBytes escaped cs :=
  List.flatMap_append

theorem toList_encode (escaped : UInt8 → Bool) (s : String) :
    (encode escaped s).toList = encodeBytes escaped (Utf8.encode s) :=
  String.toList_ofList

theorem encode_append (escaped : UInt8 → Bool) (s t : String) :
    encode escaped (s ++ t) = encode escaped s ++ encode escaped t := by
  rw [encode, Utf8.encode_append, encodeBytes_append, String.ofList_append]
  rfl

section Octets

/-- What holds of the numbers below 256 holds of the octets. -/
theorem forall_octet {p : UInt8 → Prop} (h : ∀ n, n < 0x100 → p (UInt8.ofNat n)) (b : UInt8) :
    p b := by
  have hb := h b.toNat b.toNat_lt
  rwa [UInt8.ofNat_toNat] at hb

theorem ascii_of_not_written (h : Written escaped b = false) : b.toNat < 0x80 := by
  rw [Written, Bool.or_eq_false_iff, decide_eq_false_iff_not, UInt8.le_iff_toNat_le] at h
  exact Nat.lt_of_not_le h.2

theorem hexDigit_ascii : ∀ n, n < 16 → (hexDigit n).toNat < 0x80 := by
  decide

theorem hexValue?_hexDigit : ∀ n, n < 16 →
    hexValue? (UInt8.ofNat (hexDigit n).toNat) = some (UInt8.ofNat n) := by
  decide

theorem decodeBytes_triple (b : UInt8) (rest : Bytes) :
    decodeBytes ((triple b).flatMap String.utf8EncodeChar ++ rest) = b :: decodeBytes rest := by
  have hb : b.toNat < 256 := b.toNat_lt
  have hhigh : b.toNat / 16 < 16 := by omega
  have hlow : b.toNat % 16 < 16 := by omega
  have hvalue : UInt8.ofNat (b.toNat / 16) * 16 + UInt8.ofNat (b.toNat % 16) = b := by
    apply UInt8.toNat_inj.mp
    simp only [UInt8.toNat_add, UInt8.toNat_mul, UInt8.toNat_ofNat', UInt8.reduceToNat]
    omega
  have hpercent : String.utf8EncodeChar '%' = [0x25] := by decide
  simp only [triple, List.flatMap_cons, List.flatMap_nil, hpercent,
    encodeChar_of_ascii (hexDigit_ascii _ hhigh), encodeChar_of_ascii (hexDigit_ascii _ hlow),
    List.append_nil, List.cons_append, List.nil_append, decodeBytes, hexValue?_hexDigit _ hhigh,
    hexValue?_hexDigit _ hlow, hvalue]

theorem decodeBytes_cons_of_ne (h : b ≠ 0x25) (rest : Bytes) :
    decodeBytes (b :: rest) = b :: decodeBytes rest := by
  rw [decodeBytes]
  intro x y rest' heq
  exact absurd heq h

end Octets

theorem decodeBytes_encodeBytes (h : ∀ b ∈ bs, b = 0x25 → escaped b = true) :
    decodeBytes ((encodeBytes escaped bs).flatMap String.utf8EncodeChar) = bs := by
  induction bs with
  | nil => rfl
  | cons b bs ih =>
    rw [List.forall_mem_cons] at h
    rw [encodeBytes_cons, List.flatMap_append]
    cases hwritten : Written escaped b with
    | true => rw [if_pos rfl, decodeBytes_triple, ih h.2]
    | false =>
      have hpercent : b ≠ 0x25 := by
        intro hb
        rw [Written, h.1 hb] at hwritten
        cases hwritten
      rw [if_neg Bool.false_ne_true, List.flatMap_singleton,
        Utf8.encodeChar_ofNat (ascii_of_not_written hwritten), List.singleton_append,
        decodeBytes_cons_of_ne hpercent, ih h.2]

/-- The class, or the lack of percent signs, makes every triple a triple of the writer. -/
def Readable (escaped : UInt8 → Bool) (s : String) : Prop :=
  escaped 0x25 = true ∨ '%' ∉ s.toList

theorem decode?_encode (h : Readable escaped s) : decode? (encode escaped s) = some s := by
  have hbytes : decodeBytes (Utf8.encode (encode escaped s)) = Utf8.encode s := by
    rw [Utf8.encode, toList_encode]
    apply decodeBytes_encodeBytes
    rintro b hb rfl
    rcases h with h | h
    · exact h
    · exact absurd (Utf8.mem_of_mem_encode (by decide) hb) h
  rw [decode?, hbytes, Utf8.decode?_encode]

theorem encode_inj (hs : Readable escaped s) (ht : Readable escaped t)
    (h : encode escaped s = encode escaped t) : s = t := by
  have hdecode : some s = some t := by
    rw [← decode?_encode hs, h, decode?_encode ht]
  exact Option.some.inj hdecode

section Characters

theorem hexDigit_mem : ∀ n, n < 16 → hexDigit n ∈ "0123456789ABCDEF".toList := by
  decide

/-- A character of an escaped text belongs to a triple or is an octet that is not to be
escaped. -/
theorem mem_encode_cases (h : c ∈ (encode escaped s).toList) :
    c ∈ "%0123456789ABCDEF".toList ∨
      ∃ b ∈ Utf8.encode s, Written escaped b = false ∧ c = Char.ofNat b.toNat := by
  rw [toList_encode, encodeBytes, List.mem_flatMap] at h
  obtain ⟨b, hb, hc⟩ := h
  change c ∈ if Written escaped b then triple b else [Char.ofNat b.toNat] at hc
  cases hwritten : Written escaped b with
  | true =>
    have hlt : b.toNat < 256 := b.toNat_lt
    rw [hwritten, if_pos rfl, triple] at hc
    apply Or.inl
    change c ∈ '%' :: "0123456789ABCDEF".toList
    simp only [List.mem_cons, List.not_mem_nil, or_false] at hc
    rcases hc with rfl | rfl | rfl
    · exact List.mem_cons_self
    · exact List.mem_cons_of_mem _ (hexDigit_mem _ (by omega))
    · exact List.mem_cons_of_mem _ (hexDigit_mem _ (by omega))
  | false =>
    rw [hwritten, if_neg Bool.false_ne_true, List.mem_singleton] at hc
    exact .inr ⟨b, hb, hwritten, hc⟩

/-- In the second case it belongs to the text. -/
theorem mem_encode (h : c ∈ (encode escaped s).toList) :
    c ∈ "%0123456789ABCDEF".toList ∨
      c ∈ s.toList ∧ Written escaped (UInt8.ofNat c.toNat) = false := by
  rcases mem_encode_cases h with hc | ⟨b, hb, hwritten, rfl⟩
  · exact .inl hc
  · rw [Utf8.toNat_charOfNat, UInt8.ofNat_toNat]
    exact .inr ⟨Utf8.mem_of_mem_encode (ascii_of_not_written hwritten) hb, hwritten⟩

end Characters

section Length

theorem length_encodeBytes (escaped : UInt8 → Bool) (bs : Bytes) :
    (encodeBytes escaped bs).length = bs.length + 2 * bs.countP (Written escaped) := by
  induction bs with
  | nil => rfl
  | cons b bs ih =>
    rw [encodeBytes_cons, List.length_append, List.length_cons, List.countP_cons, ih]
    cases Written escaped b with
    | true => simp only [if_pos, triple, List.length_cons, List.length_nil]; omega
    | false => simp only [Bool.false_eq_true, if_false, List.length_singleton]; omega

theorem length_encode (escaped : UInt8 → Bool) (s : String) :
    (encode escaped s).toList.length =
      (Utf8.encode s).length + 2 * (Utf8.encode s).countP (Written escaped) := by
  rw [toList_encode, length_encodeBytes]

theorem encodeBytes_eq_self {cs : List Char}
    (h : ∀ b ∈ cs.flatMap String.utf8EncodeChar, Written escaped b = false) :
    encodeBytes escaped (cs.flatMap String.utf8EncodeChar) = cs := by
  induction cs with
  | nil => rfl
  | cons c cs ih =>
    rw [List.flatMap_cons, List.forall_mem_append] at h
    have hascii : c.toNat < 0x80 := by
      apply Classical.byContradiction
      intro hlarge
      obtain ⟨b, hb⟩ := List.exists_mem_of_ne_nil _ (String.utf8EncodeChar_ne_nil (c := c))
      have hle := Utf8.le_of_mem_encodeChar hlarge b hb
      have hlt := ascii_of_not_written (h.1 b hb)
      omega
    have hone := encodeChar_of_ascii hascii
    have hself : Written escaped (UInt8.ofNat c.toNat) = false := h.1 _ (by simp [hone])
    rw [List.flatMap_cons, hone, List.singleton_append, encodeBytes_cons, hself, ih h.2,
      if_neg Bool.false_ne_true, Utf8.toNat_octet (by omega), Char.ofNat_toNat,
      List.singleton_append]

theorem written_eq_false_of_length_le
    (h : (encode escaped s).toList.length ≤ s.toList.length) :
    ∀ b ∈ Utf8.encode s, Written escaped b = false := by
  have hlength := length_encode escaped s
  have hle := Utf8.length_le_length_encode s
  have hcount : (Utf8.encode s).countP (Written escaped) = 0 := by omega
  intro b hb
  exact Bool.eq_false_iff.mpr (List.countP_eq_zero.mp hcount b hb)

theorem encode_eq_self_iff :
    encode escaped s = s ↔ ∀ b ∈ Utf8.encode s, Written escaped b = false := by
  constructor
  · intro hself
    have hlength : (encode escaped s).toList.length = s.toList.length := by rw [hself]
    exact written_eq_false_of_length_le (Nat.le_of_eq hlength)
  · intro h
    rw [encode, Utf8.encode, encodeBytes_eq_self h, String.ofList_toList]

theorem length_le_length_encode (escaped : UInt8 → Bool) (s : String) :
    s.toList.length ≤ (encode escaped s).toList.length := by
  have hlength := length_encode escaped s
  have hle := Utf8.length_le_length_encode s
  omega

theorem encode_eq_self_of_length_le
    (h : (encode escaped s).toList.length ≤ s.toList.length) : encode escaped s = s :=
  encode_eq_self_iff.mpr (written_eq_false_of_length_le h)

end Length

/-- An escaped text has nothing that a smaller class escapes. -/
theorem encode_encode {smaller : UInt8 → Bool}
    (htriple : ∀ c ∈ "%0123456789ABCDEF".toList, Written smaller (UInt8.ofNat c.toNat) = false)
    (hsmaller : ∀ b, Written escaped b = false → Written smaller b = false) (s : String) :
    encode smaller (encode escaped s) = encode escaped s := by
  apply encode_eq_self_iff.mpr
  intro b hb
  obtain ⟨c, hc, hb⟩ := List.mem_flatMap.mp hb
  rcases mem_encode_cases hc with hc | ⟨octet, -, hwritten, rfl⟩
  · have hascii : ∀ c ∈ "%0123456789ABCDEF".toList, c.toNat < 0x80 :=
      List.all_iff_forall_prop.mp (by decide)
    rw [encodeChar_of_ascii (hascii c hc), List.mem_singleton] at hb
    rw [hb]
    exact htriple c hc
  · rw [Utf8.encodeChar_ofNat (ascii_of_not_written hwritten), List.mem_singleton] at hb
    rw [hb]
    exact hsmaller octet hwritten

theorem encode_intercalate {sep : String} (hsep : encode escaped sep = sep) (parts : List String) :
    encode escaped (sep.intercalate parts) = sep.intercalate (parts.map (encode escaped)) := by
  induction parts with
  | nil => rfl
  | cons part parts ih =>
    cases parts with
    | nil => rw [List.map_singleton, String.intercalate_singleton, String.intercalate_singleton]
    | cons next parts =>
      rw [String.intercalate_cons_cons, encode_append, encode_append, hsep, ih, List.map_cons,
        List.map_cons, List.map_cons, String.intercalate_cons_cons]

end VideoGateway.Text.Percent

import VideoGateway.Proofs.Text.Percent
import VideoGateway.Url.Basic

/-!
# Names and values of a query

In a query pair a plus sign stands for a space and a triple for its octet, so every text comes
back from its form, and texts with the same form are the same.
-/
namespace VideoGateway.Url

open Text.Percent (triple decodeBytes decodeBytes_triple decodeBytes_cons_of_ne)

variable {b : UInt8} {c : Char}

/-- The octets of a character, with a space for a plus sign. -/
def pairOctets (c : Char) : Bytes :=
  if c = '+' then [0x20] else String.utf8EncodeChar c

theorem pairOctets_triple (b : UInt8) :
    (triple b).flatMap pairOctets = (triple b).flatMap String.utf8EncodeChar := by
  have hlt : b.toNat < 256 := b.toNat_lt
  have hdigit : ∀ n, n < 16 → pairOctets (Text.Percent.hexDigit n) =
      String.utf8EncodeChar (Text.Percent.hexDigit n) := by decide
  simp only [triple, List.flatMap_cons, List.flatMap_nil]
  rw [hdigit _ (by omega), hdigit _ (by omega)]
  rfl

theorem decodeBytes_pairChars (b : UInt8) (rest : Bytes) :
    decodeBytes ((pairChars b).flatMap pairOctets ++ rest) = b :: decodeBytes rest := by
  unfold pairChars
  dsimp only
  split
  · next hplain =>
    rw [Bool.and_eq_true, decide_eq_true_eq, UInt8.lt_iff_toNat_lt] at hplain
    obtain ⟨hascii, hkind⟩ := hplain
    have hplus : Char.ofNat b.toNat ≠ '+' := by
      intro heq
      rw [heq] at hkind
      exact absurd hkind (by decide)
    have hpercent : b ≠ 0x25 := by
      rintro rfl
      exact absurd hkind (by decide)
    rw [List.flatMap_singleton, pairOctets, if_neg hplus, Text.Utf8.encodeChar_ofNat hascii,
      List.singleton_append, decodeBytes_cons_of_ne hpercent]
  · split
    · next hspace =>
      have hb : b = 0x20 := by
        apply UInt8.toNat_inj.mp
        rw [← Text.Utf8.toNat_charOfNat b, hspace]
        rfl
      rw [hb]
      exact decodeBytes_cons_of_ne (by decide) rest
    · rw [pairOctets_triple, decodeBytes_triple]

theorem pairText_injective : Function.Injective pairText := by
  have hread : ∀ bs : Bytes,
      decodeBytes ((bs.flatMap pairChars).flatMap pairOctets) = bs := by
    intro bs
    induction bs with
    | nil => rfl
    | cons b bs ih =>
      rw [List.flatMap_cons, List.flatMap_append, decodeBytes_pairChars, ih]
  intro s t h
  have hchars : (Text.Utf8.encode s).flatMap pairChars = (Text.Utf8.encode t).flatMap pairChars :=
    String.ofList_injective h
  have hbytes : Text.Utf8.encode s = Text.Utf8.encode t := by
    rw [← hread (Text.Utf8.encode s), hchars, hread]
  exact Text.Utf8.encode_injective hbytes

end VideoGateway.Url

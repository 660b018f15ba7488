import VideoGateway.Text.Utf8

/-!
# Texts come back from their octets

An encoded character is read octet by octet: the first one tells how many are
owed, each of the others lies within the bounds that are pending, and the last
one completes the character. So the octets of a text decode to the text.
-/
namespace VideoGateway.Text.Utf8

variable {b : UInt8} {done : List Unit?}

section Starts

theorem start_one (h : b.toNat < 0x80) : start b = ([some (Char.ofNat b.toNat)], none) := by
  simp only [start, UInt8.lt_iff_toNat_lt, ← UInt8.toNat_inj, UInt8.reduceToNat]
  rw [if_pos h]

theorem start_two (hlow : 0xC2 ≤ b.toNat) (hhigh : b.toNat < 0xE0) :
    start b = ([], some ⟨1, 0x80, 0xBF, b.toNat - 0xC0⟩) := by
  simp only [start, UInt8.lt_iff_toNat_lt, ← UInt8.toNat_inj, UInt8.reduceToNat]
  rw [if_neg (by omega), if_neg (by omega), if_pos hhigh]

theorem start_three (hlow : 0xE0 ≤ b.toNat) (hhigh : b.toNat < 0xF0) :
    start b = ([], some ⟨2, if b.toNat = 0xE0 then 0xA0 else 0x80,
      if b.toNat = 0xED then 0x9F else 0xBF, b.toNat - 0xE0⟩) := by
  simp only [start, UInt8.lt_iff_toNat_lt, ← UInt8.toNat_inj, UInt8.reduceToNat]
  rw [if_neg (by omega), if_neg (by omega), if_neg (by omega)]
  by_cases hfirst : b.toNat = 0xE0
  · simp [hfirst]
  · by_cases hsurrogates : b.toNat = 0xED
    · simp [hsurrogates]
    · simp [hfirst, hsurrogates, hhigh]

theorem start_four (hlow : 0xF0 ≤ b.toNat) (hhigh : b.toNat < 0xF5) :
    start b = ([], some ⟨3, if b.toNat = 0xF0 then 0x90 else 0x80,
      if b.toNat = 0xF4 then 0x8F else 0xBF, b.toNat - 0xF0⟩) := by
  simp only [start, UInt8.lt_iff_toNat_lt, ← UInt8.toNat_inj, UInt8.reduceToNat]
  rw [if_neg (by omega), if_neg (by omega), if_neg (by omega), if_neg (by omega),
    if_neg (by omega), if_neg (by omega)]
  by_cases hfirst : b.toNat = 0xF0
  · simp [hfirst]
  · by_cases hlast : b.toNat = 0xF4
    · simp [hlast]
    · have hmiddle : b.toNat < 0xF4 := by omega
      simp [hfirst, hlast, hmiddle]

end Starts

theorem feed_more {owed bits : Nat} {low high : UInt8} (hlow : low.toNat ≤ b.toNat)
    (hhigh : b.toNat ≤ high.toNat) :
    feed (done, some ⟨owed + 2, low, high, bits⟩) b =
      (done, some ⟨owed + 1, 0x80, 0xBF, bits * 64 + (b.toNat - 0x80)⟩) := by
  have hlow : low ≤ b := UInt8.le_iff_toNat_le.mpr hlow
  have hhigh : b ≤ high := UInt8.le_iff_toNat_le.mpr hhigh
  simp [feed, step, hlow, hhigh]

theorem feed_last {bits : Nat} (low high : UInt8) (hlow : low.toNat ≤ b.toNat)
    (hhigh : b.toNat ≤ high.toNat) :
    feed (done, some ⟨1, low, high, bits⟩) b =
      (some (Char.ofNat (bits * 64 + (b.toNat - 0x80))) :: done, none) := by
  have hlow : low ≤ b := UInt8.le_iff_toNat_le.mpr hlow
  have hhigh : b ≤ high := UInt8.le_iff_toNat_le.mpr hhigh
  simp [feed, step, hlow, hhigh]

theorem foldl_feed_last {bits : Nat} (low high : UInt8) {b₁ b₂ : UInt8}
    (hlow : low.toNat ≤ b₁.toNat) (hhigh : b₁.toNat ≤ high.toNat) (hlast : 0x80 ≤ b₂.toNat ∧ b₂.toNat ≤ 0xBF) :
    [b₁, b₂].foldl feed (done, some ⟨2, low, high, bits⟩) =
      (some (Char.ofNat ((bits * 64 + (b₁.toNat - 0x80)) * 64 + (b₂.toNat - 0x80))) :: done,
        none) := by
  rw [List.foldl_cons, feed_more hlow hhigh, List.foldl_cons, List.foldl_nil]
  exact feed_last 0x80 0xBF hlast.1 hlast.2

theorem toNat_octet {n : Nat} (h : n < 256) : (UInt8.ofNat n).toNat = n := by
  rw [UInt8.toNat_ofNat', Nat.mod_eq_of_lt h]

section Characters

variable {v : Nat}

theorem foldl_feed_two (hlow : 0x80 ≤ v) (hhigh : v < 0x800) :
    [UInt8.ofNat (v / 64 % 32 + 192), UInt8.ofNat (v % 64 + 128)].foldl feed (done, none) =
      (some (Char.ofNat v) :: done, none) := by
  have hb₁ := toNat_octet (n := v / 64 % 32 + 192) (by omega)
  have hb₂ := toNat_octet (n := v % 64 + 128) (by omega)
  generalize UInt8.ofNat (v / 64 % 32 + 192) = b₁ at hb₁ ⊢
  generalize UInt8.ofNat (v % 64 + 128) = b₂ at hb₂ ⊢
  have hfirst : feed (done, none) b₁ = (done, some ⟨1, 0x80, 0xBF, b₁.toNat - 0xC0⟩) := by
    simp [feed, step, start_two (b := b₁) (by omega) (by omega)]
  have hlast : 0x80 ≤ b₂.toNat ∧ b₂.toNat ≤ 0xBF := by omega
  have hbits : (b₁.toNat - 0xC0) * 64 + (b₂.toNat - 0x80) = v := by omega
  rw [List.foldl_cons, hfirst, List.foldl_cons, List.foldl_nil,
    feed_last 0x80 0xBF hlast.1 hlast.2, hbits]

theorem foldl_feed_three (hlow : 0x800 ≤ v) (hhigh : v < 0x10000)
    (hvalid : v < 0xD800 ∨ 0xDFFF < v) :
    [UInt8.ofNat (v / 4096 % 16 + 224), UInt8.ofNat (v / 64 % 64 + 128),
      UInt8.ofNat (v % 64 + 128)].foldl feed (done, none) =
      (some (Char.ofNat v) :: done, none) := by
  have hb₁ := toNat_octet (n := v / 4096 % 16 + 224) (by omega)
  have hb₂ := toNat_octet (n := v / 64 % 64 + 128) (by omega)
  have hb₃ := toNat_octet (n := v % 64 + 128) (by omega)
  generalize UInt8.ofNat (v / 4096 % 16 + 224) = b₁ at hb₁ ⊢
  generalize UInt8.ofNat (v / 64 % 64 + 128) = b₂ at hb₂ ⊢
  generalize UInt8.ofNat (v % 64 + 128) = b₃ at hb₃ ⊢
  have hfirst : feed (done, none) b₁ = (done, some ⟨2, if b₁.toNat = 0xE0 then 0xA0 else 0x80,
      if b₁.toNat = 0xED then 0x9F else 0xBF, b₁.toNat - 0xE0⟩) := by
    simp [feed, step, start_three (b := b₁) (by omega) (by omega)]
  have hlast : 0x80 ≤ b₃.toNat ∧ b₃.toNat ≤ 0xBF := by omega
  have hbits : ((b₁.toNat - 0xE0) * 64 + (b₂.toNat - 0x80)) * 64 + (b₃.toNat - 0x80) = v := by
    omega
  rw [List.foldl_cons, hfirst, foldl_feed_last _ _ ?_ ?_ hlast, hbits]
  all_goals
    simp only [apply_ite UInt8.toNat, UInt8.reduceToNat]
    split <;> omega

theorem foldl_feed_four (hlow : 0x10000 ≤ v) (hhigh : v < 0x110000) :
    [UInt8.ofNat (v / 262144 % 8 + 240), UInt8.ofNat (v / 4096 % 64 + 128),
      UInt8.ofNat (v / 64 % 64 + 128), UInt8.ofNat (v % 64 + 128)].foldl feed (done, none) =
      (some (Char.ofNat v) :: done, none) := by
  have hb₁ := toNat_octet (n := v / 262144 % 8 + 240) (by omega)
  have hb₂ := toNat_octet (n := v / 4096 % 64 + 128) (by omega)
  have hb₃ := toNat_octet (n := v / 64 % 64 + 128) (by omega)
  have hb₄ := toNat_octet (n := v % 64 + 128) (by omega)
  generalize UInt8.ofNat (v / 262144 % 8 + 240) = b₁ at hb₁ ⊢
  generalize UInt8.ofNat (v / 4096 % 64 + 128) = b₂ at hb₂ ⊢
  generalize UInt8.ofNat (v / 64 % 64 + 128) = b₃ at hb₃ ⊢
  generalize UInt8.ofNat (v % 64 + 128) = b₄ at hb₄ ⊢
  have hfirst : feed (done, none) b₁ = (done, some ⟨3, if b₁.toNat = 0xF0 then 0x90 else 0x80,
      if b₁.toNat = 0xF4 then 0x8F else 0xBF, b₁.toNat - 0xF0⟩) := by
    simp [feed, step, start_four (b := b₁) (by omega) (by omega)]
  have hthird : 0x80 ≤ b₃.toNat ∧ b₃.toNat ≤ 0xBF := by omega
  have hlast : 0x80 ≤ b₄.toNat ∧ b₄.toNat ≤ 0xBF := by omega
  have hbits : (((b₁.toNat - 0xF0) * 64 + (b₂.toNat - 0x80)) * 64 + (b₃.toNat - 0x80)) * 64 +
      (b₄.toNat - 0x80) = v := by
    omega
  rw [List.foldl_cons, hfirst, List.foldl_cons, feed_more ?_ ?_, ← hbits]
  · exact foldl_feed_last 0x80 0xBF hthird.1 hthird.2 hlast
  all_goals
    simp only [apply_ite UInt8.toNat, UInt8.reduceToNat]
    split <;> omega

theorem foldl_feed_encodeChar (done : List Unit?) (c : Char) :
    (String.utf8EncodeChar c).foldl feed (done, none) = (some c :: done, none) := by
  have hvalid : c.val.toNat < 0xD800 ∨ 0xDFFF < c.val.toNat ∧ c.val.toNat < 0x110000 := c.valid
  have hc : Char.ofNat c.val.toNat = c := Char.ofNat_toNat c
  unfold String.utf8EncodeChar
  generalize c.val.toNat = v at hvalid hc ⊢
  rw [← hc]
  dsimp only
  split
  · have hb := toNat_octet (n := v) (by omega)
    have hstart := start_one (b := UInt8.ofNat v) (by omega)
    rw [hb] at hstart
    simp [feed, step, hstart]
  · split
    · exact foldl_feed_two (by omega) (by omega)
    · split
      · exact foldl_feed_three (by omega) (by omega) (by omega)
      · exact foldl_feed_four (by omega) (by omega)

end Characters

theorem foldl_feed_encode (done : List Unit?) (cs : List Char) :
    (cs.flatMap String.utf8EncodeChar).foldl feed (done, none) =
      ((cs.map some).reverse ++ done, none) := by
  induction cs generalizing done with
  | nil => rfl
  | cons c cs ih => simp [foldl_feed_encodeChar, ih]

theorem decode?_encode (s : String) : decode? (encode s) = some s := by
  have hunits : units (encode s) = s.toList.map some := by
    simp [units, encode, foldl_feed_encode]
  simp [decode?, hunits, List.filterMap_map, Function.comp_def]

theorem encode_injective : Function.Injective encode := fun s t h =>
  Option.some.inj (by rw [← decode?_encode s, h, decode?_encode])

theorem encode_append (s t : String) : encode (s ++ t) = encode s ++ encode t := by
  simp [encode]

section Octets

theorem encodeChar_of_ascii {c : Char} (h : c.toNat < 0x80) :
    String.utf8EncodeChar c = [UInt8.ofNat c.toNat] := by
  have hle : c.val.toNat ≤ 0x7F := Nat.le_of_lt_succ h
  simp only [String.utf8EncodeChar, if_pos hle]
  rfl

theorem toNat_charOfNat (b : UInt8) : (Char.ofNat b.toNat).toNat = b.toNat := by
  have hvalid : b.toNat.isValidChar := .inl (Nat.lt_trans b.toNat_lt (by decide))
  rw [Char.ofNat, dif_pos hvalid]
  rfl

theorem encodeChar_ofNat (h : b.toNat < 0x80) :
    String.utf8EncodeChar (Char.ofNat b.toNat) = [b] := by
  have hchar := toNat_charOfNat b
  rw [encodeChar_of_ascii (by omega), hchar, UInt8.ofNat_toNat]

/-- The octets of a character beyond ASCII are all beyond ASCII. -/
theorem le_of_mem_encodeChar {c : Char} (h : ¬ c.toNat < 0x80) :
    ∀ b ∈ String.utf8EncodeChar c, 0x80 ≤ b.toNat := by
  intro b hb
  have hlarge : ¬ c.val.toNat ≤ 0x7F := fun hle => h (Nat.lt_succ_of_le hle)
  unfold String.utf8EncodeChar at hb
  simp only [if_neg hlarge] at hb
  have hoctet {n low : Nat} (hb : b = UInt8.ofNat (n + low)) (hlow : 0x80 ≤ low)
      (hn : n + low < 256) : 0x80 ≤ b.toNat := by
    rw [hb, toNat_octet hn]
    omega
  split at hb
  · simp only [List.mem_cons, List.not_mem_nil, or_false] at hb
    rcases hb with hb | hb
    · exact hoctet hb (by omega) (by omega)
    · exact hoctet hb (by omega) (by omega)
  split at hb
  · simp only [List.mem_cons, List.not_mem_nil, or_false] at hb
    rcases hb with hb | hb | hb
    · exact hoctet hb (by omega) (by omega)
    · exact hoctet hb (by omega) (by omega)
    · exact hoctet hb (by omega) (by omega)
  · simp only [List.mem_cons, List.not_mem_nil, or_false] at hb
    rcases hb with hb | hb | hb | hb
    · exact hoctet hb (by omega) (by omega)
    · exact hoctet hb (by omega) (by omega)
    · exact hoctet hb (by omega) (by omega)
    · exact hoctet hb (by omega) (by omega)

theorem mem_of_mem_encode {s : String} (hb : b.toNat < 0x80) (h : b ∈ encode s) :
    Char.ofNat b.toNat ∈ s.toList := by
  obtain ⟨c, hc, hb'⟩ := List.mem_flatMap.mp h
  by_cases hascii : c.toNat < 0x80
  · rw [encodeChar_of_ascii hascii, List.mem_singleton] at hb'
    rw [hb', toNat_octet (by omega), Char.ofNat_toNat]
    exact hc
  · have hlarge := le_of_mem_encodeChar hascii b hb'
    omega

theorem length_le_length_encode (s : String) : s.toList.length ≤ (encode s).length := by
  rw [encode, List.length_flatMap]
  induction s.toList with
  | nil => exact Nat.le_refl 0
  | cons c cs ih =>
    have hpos : 0 < (String.utf8EncodeChar c).length := String.length_utf8EncodeChar c ▸ c.utf8Size_pos
    rw [List.map_cons, List.sum_cons, List.length_cons]
    omega

end Octets

end VideoGateway.Text.Utf8

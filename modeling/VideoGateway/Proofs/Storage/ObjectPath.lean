import VideoGateway.Proofs.Text.Decimal
import VideoGateway.Proofs.Text.Percent
import VideoGateway.Proofs.Text.Split
import VideoGateway.Storage.Location

/-!
# Which keys name the same object

An object path is made of the parts of the base path and then of the parts of the key, each in
its escaped form. Escaping keeps the parts apart and leaves no dots that lead elsewhere, so two
keys name the same object exactly when they have the same parts, and no key leaves the base path.
-/
namespace VideoGateway

namespace ObjectPath

variable {base key key' : String} {part part' : List Char} {cs tail : List Char}

theorem mem_parts (h : part ∈ parts key) : part ≠ [] ∧ '/' ∉ part := by
  obtain ⟨hmem, hfull⟩ := List.mem_filter.mp h
  have hne : part ≠ [] := by simpa using hfull
  exact ⟨hne, Text.not_mem_of_mem_splitAll hmem⟩

theorem parts_append_slash (s t : String) : parts (s ++ "/" ++ t) = parts s ++ parts t := by
  have hlist : (s ++ "/" ++ t).toList = s.toList ++ '/' :: t.toList := by
    rw [String.toList_append, String.toList_append, List.append_assoc]
    rfl
  rw [parts, hlist, Text.splitAll_append_cons, List.filter_append]
  rfl

section Slashes

theorem parts_slashes_append {front : List Char} (hfront : ∀ c ∈ front, (c == '/') = true)
    (cs : List Char) : parts (String.ofList (front ++ cs)) = parts (String.ofList cs) := by
  induction front with
  | nil => rfl
  | cons c front ih =>
    rw [List.forall_mem_cons, beq_iff_eq] at hfront
    obtain ⟨rfl, hfront⟩ := hfront
    have hslash : String.ofList ('/' :: (front ++ cs)) = "" ++ "/" ++ String.ofList (front ++ cs) :=
      String.toList_injective (by simp)
    rw [List.cons_append, hslash, parts_append_slash, ih hfront]
    rfl

theorem parts_append_slashes {back : List Char} (hback : ∀ c ∈ back, (c == '/') = true)
    (cs : List Char) : parts (String.ofList (cs ++ back)) = parts (String.ofList cs) := by
  cases back with
  | nil => rw [List.append_nil]
  | cons c back =>
    rw [List.forall_mem_cons, beq_iff_eq] at hback
    obtain ⟨rfl, hback⟩ := hback
    have hslash : String.ofList (cs ++ '/' :: back) = String.ofList cs ++ "/" ++ String.ofList back :=
      String.toList_injective (by simp)
    have hnone : parts (String.ofList back) = [] := by
      rw [← List.append_nil back, parts_slashes_append hback]
      rfl
    rw [hslash, parts_append_slash, hnone, List.append_nil]

theorem parts_trimLeft (key : String) : parts (Text.trimLeft (· == '/') key) = parts key := by
  have hfront : ∀ c ∈ key.toList.takeWhile (· == '/'), (c == '/') = true :=
    fun c hc => List.mem_takeWhile_imp (p := (· == '/')) hc
  rw [Text.trimLeft, ← parts_slashes_append hfront, List.takeWhile_append_dropWhile,
    String.ofList_toList]

theorem parts_trimBoth (key : String) : parts (Text.trimBoth (· == '/') key) = parts key := by
  obtain ⟨front, back, hfront, hback, hkey⟩ := Text.exists_dropBoth (· == '/') key.toList
  have hparts : parts (String.ofList key.toList) = parts (Text.trimBoth (· == '/') key) := by
    rw [hkey, parts_append_slashes hback, parts_slashes_append hfront]
    rfl
  rw [← hparts, String.ofList_toList]

end Slashes

theorem parts_keyPrefixOf_append (base key : String) :
    parts (StorageConfig.keyPrefixOf base ++ key) = parts base ++ parts key := by
  rw [← parts_trimBoth base, StorageConfig.keyPrefixOf]
  split
  · next hempty =>
    rw [String.isEmpty_iff.mp hempty, String.empty_append]
    rfl
  · exact parts_append_slash _ _

section Escaped

theorem decode?_escapePart (part : List Char) :
    Text.Percent.decode? (escapePart part) = some (String.ofList part) := by
  unfold escapePart
  split
  · next hdot =>
    rw [hdot]
    decide
  · split
    · next hdots =>
      rw [hdots]
      decide
    · exact Text.Percent.decode?_encode (.inl rfl)

theorem escapePart_injective : Function.Injective escapePart := by
  intro part part' h
  have hdecode : some (String.ofList part) = some (String.ofList part') := by
    rw [← decode?_escapePart, h, decode?_escapePart]
  exact String.ofList_injective (Option.some.inj hdecode)

theorem escapePart_ne_empty (h : part ≠ []) : escapePart part ≠ "" := by
  intro hempty
  have hdecode := decode?_escapePart part
  rw [hempty] at hdecode
  have hnil : some (String.ofList []) = some (String.ofList part) := hdecode
  exact h (String.ofList_injective (Option.some.inj hnil)).symm

theorem escapePart_ne_dots (part : List Char) : escapePart part ≠ "." ∧ escapePart part ≠ ".." := by
  constructor
  · intro hdot
    have hdecode := decode?_escapePart part
    rw [hdot] at hdecode
    have hpart : some (String.ofList ['.']) = some (String.ofList part) := hdecode
    obtain rfl := String.ofList_injective (Option.some.inj hpart)
    exact absurd hdot (by decide)
  · intro hdots
    have hdecode := decode?_escapePart part
    rw [hdots] at hdecode
    have hpart : some (String.ofList ['.', '.']) = some (String.ofList part) := hdecode
    obtain rfl := String.ofList_injective (Option.some.inj hpart)
    exact absurd hdots (by decide)

theorem slash_not_mem_escapePart (h : '/' ∉ part) : '/' ∉ (escapePart part).toList := by
  unfold escapePart
  split
  · decide
  · split
    · decide
    · intro hmem
      rcases Text.Percent.mem_encode hmem with hmem | ⟨hmem, -⟩
      · exact absurd hmem (by decide)
      · rw [String.toList_ofList] at hmem
        exact h hmem

end Escaped

theorem parts_intercalate {ps : List String} (h : ∀ p ∈ ps, p ≠ "" ∧ '/' ∉ p.toList) :
    parts ("/".intercalate ps) = ps.map String.toList := by
  cases ps with
  | nil => rfl
  | cons p ps =>
    have hslash : ∀ part ∈ (p :: ps).map String.toList, '/' ∉ part := by
      intro part hpart
      obtain ⟨q, hq, rfl⟩ := List.mem_map.mp hpart
      exact (h q hq).2
    rw [parts, String.toList_intercalate]
    change (Text.splitAll '/' (['/'].intercalate _)).filter _ = _
    rw [Text.splitAll_intercalate hslash (by simp), List.filter_eq_self]
    intro part hpart
    obtain ⟨q, hq, rfl⟩ := List.mem_map.mp hpart
    have hne := (h q hq).1
    simpa using hne

theorem parts_ofKey (start key : String) : parts (ofKey start key) =
    (parts (start ++ Text.trimLeft (· == '/') key)).map fun part => (escapePart part).toList := by
  rw [ofKey, parts_intercalate, List.map_map]
  · rfl
  · intro p hp
    obtain ⟨part, hpart, rfl⟩ := List.mem_map.mp hp
    obtain ⟨hne, hslash⟩ := mem_parts hpart
    exact ⟨escapePart_ne_empty hne, slash_not_mem_escapePart hslash⟩

/-- Two keys name the same object exactly when they have the same parts behind what all keys
begin with. -/
theorem ofKey_eq_iff {start : String} : ofKey start key = ofKey start key' ↔
    parts (start ++ Text.trimLeft (· == '/') key) =
      parts (start ++ Text.trimLeft (· == '/') key') := by
  constructor
  · intro h
    have hparts := congrArg parts h
    rw [parts_ofKey, parts_ofKey] at hparts
    have hinjective : Function.Injective fun part => (escapePart part).toList :=
      fun p q hpq => escapePart_injective (String.toList_injective hpq)
    exact hinjective.list_map hparts
  · intro h
    rw [ofKey, ofKey, h]

theorem ofKey_keyPrefixOf_eq_iff : ofKey (StorageConfig.keyPrefixOf base) key =
    ofKey (StorageConfig.keyPrefixOf base) key' ↔ parts key = parts key' := by
  rw [ofKey_eq_iff, parts_keyPrefixOf_append, parts_keyPrefixOf_append, parts_trimLeft,
    parts_trimLeft]
  exact List.append_right_inj _

/-- The path leads below a base path and stays there. -/
structure Below (base path : String) : Prop where
  /-- It begins with the parts of the base path. -/
  begins : (parts base).map (fun part => (escapePart part).toList) <+: parts path
  /-- Between its slashes there is nothing else than its parts. -/
  joined : path.toList = ['/'].intercalate (parts path)
  noDots : ∀ part ∈ parts path, part ≠ ['.'] ∧ part ≠ ['.', '.']

theorem ofKey_below (base key : String) : Below base (ofKey (StorageConfig.keyPrefixOf base) key) := by
  constructor
  · rw [parts_ofKey, parts_keyPrefixOf_append, List.map_append]
    exact List.prefix_append _ _
  · rw [parts_ofKey, ofKey, String.toList_intercalate, List.map_map]
    rfl
  · intro part hpart
    rw [parts_ofKey] at hpart
    obtain ⟨source, -, rfl⟩ := List.mem_map.mp hpart
    obtain ⟨hdot, hdots⟩ := escapePart_ne_dots source
    exact ⟨fun h => hdot (String.toList_injective h), fun h => hdots (String.toList_injective h)⟩

end ObjectPath

end VideoGateway

import VideoGateway.Proofs.Json.Rereading
import VideoGateway.Proofs.Json.Written

/-!
# What a value means, its text means

The text of a value tells a number apart from what the value holds only if it is no
integer of 64 bits. A reading that takes texts, such integers and records of them
from a value takes the same from its text.
-/
namespace VideoGateway.Document

open Json (outline outlineItems outlineMembers)

/-- The second document is the outline of a value whose document is the first one. -/
def Outlines (d e : Document) : Prop :=
  ∃ v, d = ofJson v ∧ e = outline v

theorem outlines (v : Json) : Outlines (ofJson v) (outline v) := ⟨v, rfl, rfl⟩

theorem Leaf.intact {t : Json.Token} {d : Document} (h : Leaf t d) : d.intact = true := by
  cases h <;> rfl

mutual

theorem intact_outline : ∀ v : Json, (outline v).intact = true
  | .null | .bool _ | .str _ => rfl
  | .num n => by
    obtain ⟨t, hleaf, -⟩ := n.read?_text
    exact hleaf.intact
  | .arr items => by
    rw [outline, intact, itemsIntact_outlineItems items]
    rfl
  | .obj members => by
    rw [outline, intact, membersIntact_outlineMembers members]
    rfl

theorem itemsIntact_outlineItems : ∀ vs : List Json, itemsIntact (outlineItems vs) = true
  | [] => rfl
  | v :: vs => by
    rw [outlineItems, itemsIntact, intact_outline v, itemsIntact_outlineItems vs]
    rfl

theorem membersIntact_outlineMembers :
    ∀ ms : List (String × Json), membersIntact (outlineMembers ms) = true
  | [] => rfl
  | (_, v) :: ms => by
    rw [outlineMembers, membersIntact, intact_outline v, membersIntact_outlineMembers ms]
    rfl

end

namespace Reading

theorem string_outlines : string.Respects Outlines := by
  rintro d e a ⟨v, rfl, rfl⟩ h
  cases v with
  | str s => exact h
  | _ => cases h

theorem natural_outlines {greatest : Nat} (hgreatest : greatest ≤ Word.greatest64) :
    (natural greatest).Respects Outlines := by
  rintro d e a ⟨v, rfl, rfl⟩ h
  cases v with
  | num n =>
    cases n with
    | int n =>
      have hbounds : 0 ≤ n ∧ n ≤ greatest := by
        by_contra hnot
        simp [ofJson, natural, hnot] at h
      have houtline : outline (.num (.int n)) = ofJson (.num (.int n)) := by
        refine Json.Number.outline_int (Int.le_trans (by decide) hbounds.1) ?_
        exact Int.le_trans hbounds.2 (Int.ofNat_le.mpr hgreatest)
      rw [houtline]
      exact h
    | real x => cases h
  | _ => cases h

theorem signed64_outlines : signed64.Respects Outlines := by
  rintro d e a ⟨v, rfl, rfl⟩ h
  cases v with
  | num n =>
    cases n with
    | int n =>
      have hbounds : Word.leastSigned64 ≤ n ∧ n ≤ Word.greatestSigned64 := by
        by_contra hnot
        simp [ofJson, signed64, integer, hnot] at h
      have houtline : outline (.num (.int n)) = ofJson (.num (.int n)) :=
        Json.Number.outline_int hbounds.1 (Int.le_trans hbounds.2 (by decide))
      rw [houtline]
      exact h
    | real x => cases h
  | _ => cases h

theorem option_outlines {α : Type} {read : Reading α} (hnull : ∀ a, read .null ≠ .ok a)
    (h : read.Respects Outlines) : (option read).Respects Outlines := by
  intro d e a hde hread
  by_cases hd : d = .null
  · subst hd
    obtain ⟨v, hv, rfl⟩ := hde
    cases v with
    | null => exact hread
    | _ => cases hv
  · rw [option_eq_map hd] at hread
    obtain ⟨b, hb, rfl⟩ := map_eq_ok_iff.mp hread
    have he : e ≠ .null := by
      rintro rfl
      exact hnull b (h hde hb)
    rw [option_eq_map he]
    exact map_eq_ok_iff.mpr ⟨b, h hde hb, rfl⟩

end Reading

namespace Record

variable {fields : List Field} {found found' r : Record}

/-- The entries of the second record are the outlines of those of the first one. -/
def Outlined (r r' : Record) : Prop :=
  List.Forall₂ (fun m n => m.1 = n.1 ∧ Outlines m.2 n.2) r r'

theorem Outlined.lookup (h : Outlined found found') (name : String) :
    Option.Rel Outlines (found.lookup name) (found'.lookup name) := by
  induction h with
  | nil => exact .none
  | @cons m n _ _ hmn _ ih =>
    obtain ⟨key, d⟩ := m
    obtain ⟨_, e⟩ := n
    obtain ⟨rfl, hde⟩ := hmn
    rw [List.lookup_cons, List.lookup_cons]
    cases name == key with
    | true => exact .some hde
    | false => exact ih

theorem Outlined.isSome_lookup (h : Outlined found found') (name : String) :
    (found'.lookup name).isSome = (found.lookup name).isSome := by
  have hrel := h.lookup name
  generalize found.lookup name = x at hrel ⊢
  generalize found'.lookup name = y at hrel ⊢
  cases hrel <;> rfl

/-- The members of a value and those of its outline are added side by side. -/
theorem addMembers_outlined (hfields : ∀ f ∈ fields, f.Respects Outlines)
    {ms : List (String × Json)} (h : Outlined found found')
    (hread : addMembers fields found (ofMembers ms) = .ok r) :
    ∃ r', addMembers fields found' (outlineMembers ms) = .ok r' ∧ Outlined r r' := by
  induction ms generalizing found found' with
  | nil =>
    cases hread
    exact ⟨found', rfl, h⟩
  | cons m ms ih =>
    obtain ⟨key, v⟩ := m
    rw [ofMembers, addMembers] at hread
    rw [outlineMembers, addMembers]
    cases hfind : fields.find? (·.names.contains key) with
    | none =>
      simp only [hfind, intact_ofJson, ↓reduceIte] at hread
      simp only [intact_outline, ↓reduceIte]
      exact ih h hread
    | some f =>
      simp only [hfind] at hread
      simp only [h.isSome_lookup]
      split at hread
      · cases hread
      · next hfresh =>
        rw [if_neg hfresh]
        split at hread
        · cases hread
        · next hcheck =>
          have hmem := List.mem_of_find?_eq_some hfind
          have hentry : Outlines (ofJson v) (outline v) := outlines v
          rw [hfields f hmem hentry hcheck]
          have hfound : Outlined ((f.name, ofJson v) :: found) ((f.name, outline v) :: found') :=
            .cons ⟨rfl, hentry⟩ h
          exact ih hfound hread

theorem outlines_items : ∀ vs : List Json,
    List.Forall₂ Outlines (ofItems vs) (outlineItems vs)
  | [] => .nil
  | v :: vs => .cons (outlines v) (outlines_items vs)

theorem ofDocument_outlines {d e : Document} (hplain : Field.Plain fields)
    (hfields : ∀ f ∈ fields, f.Respects Outlines) (hde : Outlines d e)
    (h : ofDocument fields d = .ok r) :
    ∃ r', ofDocument fields e = .ok r' ∧ Related Outlines fields r r' := by
  obtain ⟨v, rfl, rfl⟩ := hde
  cases v with
  | arr items => exact ofDocument_array_rel hplain hfields (outlines_items items) h
  | obj members =>
    simp only [ofJson, ofDocument] at h
    split at h
    · cases h
    · next found hfound =>
      obtain ⟨found', hfound', houtlined⟩ := addMembers_outlined hfields .nil hfound
      have hmissing : (fun f : Field => f.needed && (found'.lookup f.name).isNone) =
          fun f => f.needed && (found.lookup f.name).isNone := by
        funext f
        rw [← Option.not_isSome, houtlined.isSome_lookup, Option.not_isSome]
      split at h
      · cases h
      · next hclosed =>
        split at h
        · cases h
        · next hcomplete =>
          cases h
          refine ⟨found', ?_, fun f _ => houtlined.lookup f.name⟩
          rw [outline, ofDocument, hfound']
          simp only [hmissing, hclosed, hcomplete]
          rfl
  | _ => cases h

end Record

/-- What is read from a value is read from its text. -/
theorem outlines_faithful : Faithful Outlines where
  string := Reading.string_outlines
  natural := Reading.natural_outlines
  signed64 := Reading.signed64_outlines
  option := Reading.option_outlines
  record := Record.ofDocument_outlines

/-- A reading that respects outlines takes from the text of a value what it takes
from the value. -/
theorem readText_bytes {α : Type} {read : Reading α} (hread : read.Respects Outlines) {v : Json}
    {a : α} (h : readJson read v = .ok a) : readText read v.bytes = .ok a := by
  have htext : read (outline v) = .ok a := hread (outlines v) h
  rw [readText, Json.ofText_bytes]
  simp only [htext, ↓reduceIte]

end VideoGateway.Document

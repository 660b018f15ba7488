import VideoGateway.Proofs.Json.Record

/-!
# Readings that respect a relation

A document may be changed where no reading looks. A reading respects a relation
between documents when what it reads from one of them it reads from every related
one, and a record does so as soon as its fields do.
-/
namespace VideoGateway.Document

variable {α : Type} {R : Document → Document → Prop}

/-- What is read from a document is read from every related one. -/
def Reading.Respects (R : Document → Document → Prop) (read : Reading α) : Prop :=
  ∀ {d e a}, R d e → read d = .ok a → read e = .ok a

def Field.Respects (R : Document → Document → Prop) (f : Field) : Prop :=
  ∀ {d e}, R d e → f.check d = .ok () → f.check e = .ok ()

theorem Slot.field_respects {slot : Slot α} (h : slot.read.Respects R) : slot.field.Respects R := by
  intro d e hde hcheck
  obtain ⟨a, ha, -⟩ := map_eq_ok_iff.mp hcheck
  exact map_eq_ok_iff.mpr ⟨a, h hde ha, rfl⟩

theorem Reading.option_eq_map {read : Reading α} {d : Document} (h : d ≠ .null) :
    option read d = (read d).map some := by
  unfold option
  split
  · exact absurd rfl h
  · rfl

namespace Record

variable {fields : List Field} {ds es : List Document} {r r' : Record} {closed : Bool}

/-- The fields of the second record are related to those of the first one. -/
def Related (R : Document → Document → Prop) (fields : List Field) (r r' : Record) : Prop :=
  ∀ f ∈ fields, Option.Rel R (r.lookup f.name) (r'.lookup f.name)

theorem get_of_rel {slot : Slot α} {a : α} (hslot : slot.read.Respects R)
    (hrel : Option.Rel R (r.lookup slot.field.name) (r'.lookup slot.field.name))
    (h : r.get slot = .ok a) : r'.get slot = .ok a := by
  generalize hd : r.lookup slot.field.name = found at hrel
  generalize he : r'.lookup slot.field.name = found' at hrel
  cases hrel with
  | some hde =>
    rw [get_of_lookup hd] at h
    rw [get_of_lookup he]
    exact hslot hde h
  | none =>
    have hd : r.lookup (slot.names.headD "") = none := hd
    have he : r'.lookup (slot.names.headD "") = none := he
    simp only [get, hd] at h
    simpa only [get, he] using h

theorem lookup_listed_rel (h : List.Forall₂ R ds es) (fields : List Field) (name : String) :
    Option.Rel R ((listed fields ds).lookup name) ((listed fields es).lookup name) := by
  induction h generalizing fields with
  | nil => simp [listed]
  | @cons d e ds es hde _ ih =>
    cases fields with
    | nil => exact .none
    | cons f fs =>
      by_cases hname : name = f.name
      · simpa [listed, List.lookup_cons, hname] using Option.Rel.some hde
      · have hb : (name == f.name) = false := by simpa using hname
        simpa [listed, List.lookup_cons, hb] using ih fs

theorem check_zip_rel (h : List.Forall₂ R ds es) (hfields : ∀ f ∈ fields, f.Respects R)
    (hchecks : ∀ p ∈ fields.zip ds, p.1.check p.2 = .ok ()) :
    ∀ p ∈ fields.zip es, p.1.check p.2 = .ok () := by
  induction h generalizing fields with
  | nil => simp
  | cons hde _ ih =>
    cases fields with
    | nil => simp
    | cons f fs =>
      rw [List.zip_cons_cons, List.forall_mem_cons] at hchecks ⊢
      rw [List.forall_mem_cons] at hfields
      exact ⟨hfields.1 hde hchecks.1, ih hfields.2 hchecks.2⟩

theorem ofDocument_array_rel (hplain : Field.Plain fields) (hfields : ∀ f ∈ fields, f.Respects R)
    (hitems : List.Forall₂ R ds es) (h : ofDocument fields (.array ds closed) = .ok r) :
    ∃ r', ofDocument fields (.array es closed) = .ok r' ∧ Related R fields r r' := by
  obtain ⟨hclosed, hlength, hchecks, hneeded, rfl⟩ := addItems_eq_ok_iff.mp h
  have hchecks' := check_zip_rel hitems hfields hchecks
  rw [hitems.length_eq] at hlength hneeded
  refine ⟨_, addItems_eq_ok_iff.mpr ⟨hclosed, hlength, hchecks', hneeded, rfl⟩, fun f _ => ?_⟩
  rw [List.append_nil, List.append_nil, lookup_reverse (listed_once hplain ds),
    lookup_reverse (listed_once hplain es)]
  exact lookup_listed_rel hitems fields f.name

end Record

/-- A relation that texts, integers of 64 bits, values that may be missing, and
records of such fields respect. -/
structure Faithful (R : Document → Document → Prop) : Prop where
  string : Reading.string.Respects R
  natural {greatest : Nat} : greatest ≤ Word.greatest64 → (Reading.natural greatest).Respects R
  signed64 : Reading.signed64.Respects R
  option {α : Type} {read : Reading α} : (∀ a, read .null ≠ .ok a) → read.Respects R →
    (Reading.option read).Respects R
  record {fields : List Field} {d e : Document} {r : Record} : Field.Plain fields →
    (∀ f ∈ fields, f.Respects R) → R d e → Record.ofDocument fields d = .ok r →
    ∃ r', Record.ofDocument fields e = .ok r' ∧ Record.Related R fields r r'

/-- A reading of records respects a relation if the readings of its columns do. -/
theorem Reading.Gathers.respects {read : Reading α} {columns : List (Column α)}
    (h : read.Gathers columns) (hplain : Field.Plain (columns.map Column.field))
    (hR : Faithful R) (hcolumns : ∀ c ∈ columns, c.slot.read.Respects R) : read.Respects R := by
  have hfields : ∀ f ∈ columns.map Column.field, f.Respects R :=
    List.forall_mem_map.mpr fun c hc => Slot.field_respects (hcolumns c hc)
  intro d e a hde hd
  obtain ⟨r, hr, hparts⟩ := h.eq_ok_iff.mp hd
  obtain ⟨r', hr', hrel⟩ := hR.record hplain hfields hde hr
  refine h.eq_ok_iff.mpr ⟨r', hr', fun c hc => ?_⟩
  exact Record.get_of_rel (hcolumns c hc) (hrel _ (List.mem_map_of_mem hc)) (hparts c hc)

end VideoGateway.Document

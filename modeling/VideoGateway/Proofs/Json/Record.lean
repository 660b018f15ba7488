import Mathlib.Data.List.Nodup
import VideoGateway.Json.Record
import VideoGateway.Proofs.Basic

/-!
# What a record reads

A record reads an object when every member of it suits: a field has its type and
occurs once, and what is no field is JSON at least. It reads a list when the
items suit the fields in order. Then each field has the value that stands under
its name or at its place, and its default where there is none. A reading that gets
one field after the other gives the value whose parts they are.
-/
namespace VideoGateway.Document

namespace Field

def of? (fields : List Field) (key : Option String) : Option Field :=
  key.bind fun key => fields.find? (·.names.contains key)

/-- Fields of one name each, all different. -/
structure Plain (fields : List Field) : Prop where
  names : ∀ f ∈ fields, f.names = [f.name]
  nodup : (fields.map Field.name).Nodup

theorem plain_iff {fields : List Field} :
    Plain fields ↔ (∀ f ∈ fields, f.names = [f.name]) ∧ (fields.map Field.name).Nodup :=
  ⟨fun h => ⟨h.names, h.nodup⟩, fun h => ⟨h.1, h.2⟩⟩

instance (fields : List Field) : Decidable (Plain fields) :=
  decidable_of_iff' _ plain_iff

variable {fields : List Field} {f : Field}

theorem mem_of_of? {key : Option String} (h : of? fields key = some f) : f ∈ fields := by
  obtain ⟨k, -, hfind⟩ := Option.bind_eq_some_iff.mp h
  exact List.mem_of_find?_eq_some hfind

theorem Plain.eq_of_name_eq (h : Plain fields) {f g : Field} (hf : f ∈ fields) (hg : g ∈ fields)
    (hname : f.name = g.name) : f = g :=
  List.inj_on_of_nodup_map h.nodup hf hg hname

theorem Plain.of?_eq_some_iff (h : Plain fields) {key : Option String} :
    of? fields key = some f ↔ f ∈ fields ∧ key = some f.name := by
  constructor
  · intro hof
    obtain ⟨k, rfl, hfind⟩ := Option.bind_eq_some_iff.mp hof
    have hmem := List.mem_of_find?_eq_some hfind
    have hnamed := List.find?_some hfind
    rw [h.names f hmem] at hnamed
    simp at hnamed
    exact ⟨hmem, by rw [hnamed]⟩
  · rintro ⟨hmem, rfl⟩
    cases hof : of? fields (some f.name) with
    | none =>
      have hnamed := List.find?_eq_none.mp hof f hmem
      rw [h.names f hmem] at hnamed
      simp at hnamed
    | some g =>
      have hg := List.mem_of_find?_eq_some hof
      have hnamed := List.find?_some hof
      rw [h.names g hg] at hnamed
      simp at hnamed
      rw [h.eq_of_name_eq hmem hg hnamed]

end Field

namespace Record

variable {fields : List Field} {ms : List (Option String × Document)} {ds : List Document}
  {closed : Bool} {found r : Record}

/-- What an object gives for the fields, in its written order. -/
def given (fields : List Field) (ms : List (Option String × Document)) : Record :=
  ms.filterMap fun m => (Field.of? fields m.1).map fun f => (f.name, m.2)

/-- The member can be read past: its key is a text, the value of a field is of
the type of the field, and any other value is JSON. -/
structure Suits (fields : List Field) (m : Option String × Document) : Prop where
  keyed : m.1.isSome = true
  check : ∀ f, Field.of? fields m.1 = some f → f.check m.2 = .ok ()
  intact : Field.of? fields m.1 = none → m.2.intact = true

/-- The members make up a record. -/
structure Fits (fields : List Field) (ms : List (Option String × Document)) : Prop where
  suits : ∀ m ∈ ms, Suits fields m
  once : ((given fields ms).map Prod.fst).Nodup
  complete : ∀ f ∈ fields, f.needed = true → ((given fields ms).lookup f.name).isSome = true

/-- The members make up a record, whatever the value of one field is. -/
structure FitsApart (fields : List Field) (name : String) (ms : List (Option String × Document)) :
    Prop where
  suits : ∀ m ∈ ms, m.1 ≠ some name → Suits fields m
  once : ((given fields ms).map Prod.fst).Nodup
  complete : ∀ f ∈ fields, f.needed = true → ((given fields ms).lookup f.name).isSome = true

theorem suits_iff {m : Option String × Document} :
    Suits fields m ↔ m.1.isSome = true ∧ (∀ f ∈ Field.of? fields m.1, f.check m.2 = .ok ()) ∧
      (Field.of? fields m.1 = none → m.2.intact = true) :=
  ⟨fun h => ⟨h.keyed, h.check, h.intact⟩, fun h => ⟨h.1, h.2.1, h.2.2⟩⟩

instance (m : Option String × Document) : Decidable (Suits fields m) :=
  decidable_of_iff' _ suits_iff

theorem fitsApart_iff {name : String} :
    FitsApart fields name ms ↔ (∀ m ∈ ms, m.1 ≠ some name → Suits fields m) ∧
      ((given fields ms).map Prod.fst).Nodup ∧
      ∀ f ∈ fields, f.needed = true → ((given fields ms).lookup f.name).isSome = true :=
  ⟨fun h => ⟨h.suits, h.once, h.complete⟩, fun h => ⟨h.1, h.2.1, h.2.2⟩⟩

instance (name : String) : Decidable (FitsApart fields name ms) :=
  decidable_of_iff' _ fitsApart_iff

section Member

variable {key : String} {d : Document} {f : Field}

theorem suits_of_unlisted (h : Field.of? fields (some key) = none) :
    Suits fields (some key, d) ↔ d.intact = true :=
  ⟨fun hsuits => hsuits.intact h, fun hintact => ⟨rfl, by simp [h], fun _ => hintact⟩⟩

theorem suits_of_listed (h : Field.of? fields (some key) = some f) :
    Suits fields (some key, d) ↔ f.check d = .ok () := by
  refine ⟨fun hsuits => hsuits.check f h, fun hcheck => ⟨rfl, ?_, by simp [h]⟩⟩
  intro f' hf'
  obtain rfl : f = f' := Option.some.inj (h.symm.trans hf')
  exact hcheck

theorem given_cons_of_unlisted (h : Field.of? fields (some key) = none) :
    given fields ((some key, d) :: ms) = given fields ms := by
  simp [given, h]

theorem given_cons_of_listed (h : Field.of? fields (some key) = some f) :
    given fields ((some key, d) :: ms) = (f.name, d) :: given fields ms := by
  simp [given, h]

theorem addMembers_cons_of_unlisted (h : Field.of? fields (some key) = none) :
    addMembers fields found ((some key, d) :: ms) = .ok r ↔
      Suits fields (some key, d) ∧ addMembers fields found ms = .ok r := by
  have hfield : fields.find? (·.names.contains key) = none := h
  rw [suits_of_unlisted h]
  simp only [addMembers, hfield]
  cases d.intact with
  | false => simp
  | true => simp

theorem addMembers_cons_of_listed (h : Field.of? fields (some key) = some f) :
    addMembers fields found ((some key, d) :: ms) = .ok r ↔
      Suits fields (some key, d) ∧ f.name ∉ found.map Prod.fst ∧
        addMembers fields ((f.name, d) :: found) ms = .ok r := by
  have hfield : fields.find? (·.names.contains key) = some f := h
  rw [suits_of_listed h, ← lookup_eq_none_iff_notMem]
  simp only [addMembers, hfield]
  cases found.lookup f.name with
  | some old => simp
  | none =>
    cases f.check d with
    | error fault => simp
    | ok _ => simp

end Member

theorem addMembers_eq_ok_iff (hfound : (List.map Prod.fst found).Nodup) :
    addMembers fields found ms = .ok r ↔
      (∀ m ∈ ms, Suits fields m) ∧ (((given fields ms).reverse ++ found).map Prod.fst).Nodup ∧
        r = (given fields ms).reverse ++ found := by
  -- Over the members from the left; what was found so far has no name twice.
  induction ms generalizing found with
  | nil => simp [addMembers, given, hfound, eq_comm]
  | cons m ms ih =>
    obtain ⟨key, d⟩ := m
    rw [List.forall_mem_cons]
    cases key with
    | none =>
      have hnot : ¬ Suits fields (none, d) := fun h => nomatch h.keyed
      simp [addMembers, hnot]
    | some key =>
      cases hof : Field.of? fields (some key) with
      | none =>
        rw [addMembers_cons_of_unlisted hof, given_cons_of_unlisted hof, ih hfound, and_assoc]
      | some f =>
        rw [addMembers_cons_of_listed hof, given_cons_of_listed hof, List.reverse_cons,
          List.append_assoc, List.singleton_append]
        constructor
        · rintro ⟨hsuits, hfresh, hrest⟩
          have honce : (((f.name, d) :: found).map Prod.fst).Nodup :=
            List.nodup_cons.mpr ⟨hfresh, hfound⟩
          obtain ⟨hall, hnodup, hr⟩ := (ih honce).mp hrest
          exact ⟨⟨hsuits, hall⟩, hnodup, hr⟩
        · rintro ⟨⟨hsuits, hall⟩, hnodup, hr⟩
          have honce : (((f.name, d) :: found).map Prod.fst).Nodup := by
            rw [List.map_append] at hnodup
            exact hnodup.of_append_right
          exact ⟨hsuits, (List.nodup_cons.mp honce).1, (ih honce).mpr ⟨hall, hnodup, hr⟩⟩

/-- An object is read when its members make up a record. -/
theorem ofDocument_object_eq_ok_iff :
    ofDocument fields (.object ms closed) = .ok r ↔
      closed = true ∧ Fits fields ms ∧ r = (given fields ms).reverse := by
  have hadd (r : Record) : addMembers fields [] ms = .ok r ↔ (∀ m ∈ ms, Suits fields m) ∧
      ((given fields ms).map Prod.fst).Nodup ∧ r = (given fields ms).reverse := by
    have hnil : (List.map Prod.fst ([] : Record)).Nodup := List.nodup_nil
    rw [addMembers_eq_ok_iff hnil, List.append_nil, List.map_reverse,
      List.nodup_reverse]
  cases hmembers : addMembers fields [] ms with
  | error fault =>
    have hnot : ¬ Fits fields ms := by
      intro hfits
      have hok := (hadd _).mpr ⟨hfits.suits, hfits.once, rfl⟩
      cases hmembers.symm.trans hok
    simp [ofDocument, hmembers, hnot]
  | ok found =>
    obtain ⟨hsuits, honce, rfl⟩ := (hadd found).mp hmembers
    have hcomplete : (fields.any fun f => f.needed &&
        ((given fields ms).reverse.lookup f.name).isNone) = true ↔ ¬ Fits fields ms := by
      rw [← Bool.not_eq_false, not_iff_not]
      simp only [lookup_reverse honce, List.any_eq_false, Bool.and_eq_true, not_and,
        Option.isNone_iff_eq_none, ← Option.isSome_iff_ne_none]
      exact ⟨fun h => ⟨hsuits, honce, h⟩, fun h => h.complete⟩
    simp only [ofDocument, hmembers]
    cases closed with
    | false => simp
    | true =>
      simp only [Bool.not_true, Bool.false_eq_true, ↓reduceIte, true_and]
      split
      · next hmissing => simp [hcomplete.mp hmissing]
      · next hmissing => simp [not_not.mp (mt hcomplete.mpr hmissing), eq_comm (a := r)]

/-- What a list gives for the fields, in order. -/
def listed (fields : List Field) (ds : List Document) : Record :=
  (fields.zip ds).map fun p => (p.1.name, p.2)

/-- A list is read when its items suit the fields in order. -/
theorem addItems_eq_ok_iff :
    addItems found closed fields ds = .ok r ↔
      closed = true ∧ ds.length ≤ fields.length ∧
      (∀ p ∈ fields.zip ds, p.1.check p.2 = .ok ()) ∧
      (∀ f ∈ fields.drop ds.length, f.needed = false) ∧
      r = (listed fields ds).reverse ++ found := by
  induction fields generalizing ds found with
  | nil =>
    cases ds with
    | nil => cases closed <;> simp [addItems, listed, eq_comm (a := found)]
    | cons d ds => simp [addItems]
  | cons f fs ih =>
    cases ds with
    | nil =>
      cases closed with
      | false => simp [addItems]
      | true =>
        cases hneeded : f.needed with
        | true => simp [addItems, hneeded]
        | false => simpa [addItems, listed, hneeded] using @ih [] found
    | cons d ds =>
      cases hcheck : f.check d with
      | error fault => simp [addItems, hcheck]
      | ok _ => simpa [addItems, listed, hcheck] using ih

theorem keys_listed (fields : List Field) (ds : List Document) :
    List.map Prod.fst (listed fields ds) = (fields.take ds.length).map Field.name := by
  induction fields generalizing ds with
  | nil => simp [listed]
  | cons f fs ih =>
    cases ds with
    | nil => rfl
    | cons d ds => simpa [listed] using ih ds

/-- What a record that was read holds: every entry has been checked, and no field
is missing that must be given. -/
structure Sound (fields : List Field) (r : Record) : Prop where
  once : (List.map Prod.fst r).Nodup
  check : ∀ f ∈ fields, ∀ d, r.lookup f.name = some d → f.check d = .ok ()
  complete : ∀ f ∈ fields, r.lookup f.name = none → f.needed = false

section Plain

variable (hplain : Field.Plain fields)
include hplain

theorem mem_given_iff {name : String} {d : Document} :
    (name, d) ∈ given fields ms ↔ (some name, d) ∈ ms ∧ ∃ f ∈ fields, f.name = name := by
  unfold given
  simp only [List.mem_filterMap, Option.map_eq_some_iff, hplain.of?_eq_some_iff]
  constructor
  · rintro ⟨⟨key, d'⟩, hmem, f, ⟨hf, rfl⟩, heq⟩
    obtain ⟨rfl, rfl⟩ := Prod.mk.inj heq
    exact ⟨hmem, f, hf, rfl⟩
  · rintro ⟨hmem, f, hf, rfl⟩
    exact ⟨_, hmem, f, ⟨hf, rfl⟩, rfl⟩

theorem Fits.lookup_eq_some_iff (h : Fits fields ms) {f : Field} (hf : f ∈ fields) {d : Document} :
    (given fields ms).lookup f.name = some d ↔ (some f.name, d) ∈ ms := by
  rw [lookup_eq_some_iff_mem h.once, mem_given_iff hplain]
  exact ⟨fun hmem => hmem.1, fun hmem => ⟨hmem, f, hf, rfl⟩⟩

theorem FitsApart.fits {f : Field} (h : FitsApart fields f.name ms) (hf : f ∈ fields)
    (hcheck : ∀ d, (some f.name, d) ∈ ms → f.check d = .ok ()) : Fits fields ms := by
  have hof : Field.of? fields (some f.name) = some f := hplain.of?_eq_some_iff.mpr ⟨hf, rfl⟩
  refine ⟨fun m hm => ?_, h.once, h.complete⟩
  by_cases hname : m.1 = some f.name
  · obtain ⟨key, d⟩ := m
    obtain rfl : key = some f.name := hname
    exact (suits_of_listed hof).mpr (hcheck d hm)
  · exact h.suits m hm hname

/-- One value of the field is enough, since there is no other. -/
theorem FitsApart.fits_of_mem {f : Field} {d : Document} (h : FitsApart fields f.name ms)
    (hf : f ∈ fields) (hmem : (some f.name, d) ∈ ms) (hcheck : f.check d = .ok ()) :
    Fits fields ms := by
  refine h.fits hplain hf fun d' hmem' => ?_
  have hgiven : (f.name, d) ∈ given fields ms :=
    (mem_given_iff hplain).mpr ⟨hmem, f, hf, rfl⟩
  have hgiven' : (f.name, d') ∈ given fields ms :=
    (mem_given_iff hplain).mpr ⟨hmem', f, hf, rfl⟩
  obtain ⟨-, rfl⟩ := Prod.mk.inj (List.inj_on_of_nodup_map h.once hgiven hgiven' rfl)
  exact hcheck

theorem Fits.sound (h : Fits fields ms) : Sound fields (given fields ms).reverse := by
  refine ⟨?_, fun f hf d hd => ?_, fun f hf hnone => ?_⟩
  · rw [List.map_reverse]
    exact List.nodup_reverse.mpr h.once
  · rw [lookup_reverse h.once, h.lookup_eq_some_iff hplain hf] at hd
    exact (h.suits _ hd).check f (hplain.of?_eq_some_iff.mpr ⟨hf, rfl⟩)
  · rw [lookup_reverse h.once] at hnone
    by_contra hneeded
    have hgiven := h.complete f hf (by simpa using hneeded)
    simp [hnone] at hgiven

theorem listed_once (ds : List Document) : (List.map Prod.fst (listed fields ds)).Nodup := by
  rw [keys_listed]
  exact hplain.nodup.sublist ((List.take_sublist _ _).map _)

theorem listed_sound (hchecks : ∀ p ∈ fields.zip ds, p.1.check p.2 = .ok ())
    (hneeded : ∀ f ∈ fields.drop ds.length, f.needed = false) :
    Sound fields (listed fields ds).reverse := by
  have honce := listed_once hplain ds
  refine ⟨?_, fun f hf d hd => ?_, fun f hf hnone => ?_⟩
  · rw [List.map_reverse]
    exact List.nodup_reverse.mpr honce
  · rw [lookup_reverse honce, lookup_eq_some_iff_mem honce] at hd
    obtain ⟨⟨g, d'⟩, hmem, heq⟩ := List.mem_map.mp hd
    obtain ⟨hname, rfl⟩ := Prod.mk.inj heq
    rw [hplain.eq_of_name_eq hf (List.of_mem_zip hmem).1 hname.symm]
    exact hchecks _ hmem
  · rw [lookup_reverse honce, lookup_eq_none_iff_notMem, keys_listed] at hnone
    rw [← List.take_append_drop ds.length fields, List.mem_append] at hf
    rcases hf with hf | hf
    · exact absurd (List.mem_map_of_mem hf) hnone
    · exact hneeded f hf

theorem ofDocument_sound {d : Document} (h : ofDocument fields d = .ok r) : Sound fields r := by
  cases d with
  | object ms closed =>
    obtain ⟨-, hfits, rfl⟩ := ofDocument_object_eq_ok_iff.mp h
    exact hfits.sound hplain
  | array ds closed =>
    obtain ⟨-, -, hchecks, hneeded, rfl⟩ := addItems_eq_ok_iff.mp h
    rw [List.append_nil]
    exact listed_sound hplain hchecks hneeded
  | _ => cases h

end Plain

section Get

variable {α : Type} {slot : Slot α} {name : String} {d : Document}

theorem get_of_lookup (h : r.lookup slot.field.name = some d) : r.get slot = slot.read d := by
  have h : r.lookup (slot.names.headD "") = some d := h
  simp only [get, h]

theorem get_of_lookup_eq_none {a : α} (h : r.lookup slot.field.name = none)
    (hdefault : slot.default? = some a) : r.get slot = .ok a := by
  have h : r.lookup (slot.names.headD "") = none := h
  simp only [get, h, hdefault]

theorem Sound.get_isOk (h : Sound fields r) (hslot : slot.field ∈ fields) :
    ∃ a, r.get slot = .ok a := by
  cases hlookup : r.lookup slot.field.name with
  | none =>
    have hdefault := h.complete _ hslot hlookup
    obtain ⟨a, ha⟩ := Option.isSome_iff_exists.mp (Option.isNone_eq_false_iff.mp hdefault)
    exact ⟨a, get_of_lookup_eq_none hlookup ha⟩
  | some d =>
    rw [get_of_lookup hlookup]
    have hcheck : (slot.read d).map (fun _ => ()) = .ok () := h.check _ hslot d hlookup
    cases hread : slot.read d with
    | error fault => rw [hread] at hcheck; cases hcheck
    | ok a => exact ⟨a, rfl⟩

end Get

end Record

/-- A reading of records in which `part` is the value of a field. -/
structure Reading.Takes {α β : Type} (read : Reading α) (fields : List Field) (slot : Slot β)
    (part : α → β) : Prop where
  plain : Field.Plain fields
  mem : slot.field ∈ fields
  record : ∀ {d a}, read d = .ok a → ∃ r, Record.ofDocument fields d = .ok r ∧
    r.get slot = .ok (part a)
  total : ∀ {d r}, Record.ofDocument fields d = .ok r → ∃ a, read d = .ok a

namespace Reading.Takes

variable {α β : Type} {read : Reading α} {fields : List Field} {slot : Slot β} {part : α → β}
  {ms : List (Option String × Document)} {closed : Bool} {d : Document} {a : α}

theorem read_member (h : read.Takes fields slot part) (hread : read (.object ms closed) = .ok a)
    (hmem : (some slot.field.name, d) ∈ ms) : slot.read d = .ok (part a) := by
  obtain ⟨r, hr, hget⟩ := h.record hread
  obtain ⟨-, hfits, rfl⟩ := Record.ofDocument_object_eq_ok_iff.mp hr
  rw [Record.get_of_lookup] at hget
  · exact hget
  · rw [lookup_reverse hfits.once]
    exact (hfits.lookup_eq_some_iff h.plain h.mem).mpr hmem

theorem read_missing (h : read.Takes fields slot part) (hread : read (.object ms closed) = .ok a)
    (hmissing : ∀ d, (some slot.field.name, d) ∉ ms) {b : β} (hdefault : slot.default? = some b) :
    part a = b := by
  obtain ⟨r, hr, hget⟩ := h.record hread
  obtain ⟨-, hfits, rfl⟩ := Record.ofDocument_object_eq_ok_iff.mp hr
  have hnone : (Record.given fields ms).reverse.lookup slot.field.name = none := by
    rw [lookup_reverse hfits.once, Option.eq_none_iff_forall_ne_some]
    exact fun d hd => hmissing d ((hfits.lookup_eq_some_iff h.plain h.mem).mp hd)
  rw [Record.get_of_lookup_eq_none hnone hdefault] at hget
  exact (Except.ok.inj hget).symm

theorem read_short (h : read.Takes fields slot part) {ds : List Document}
    (hread : read (.array ds closed) = .ok a)
    (hshort : slot.field.name ∉ (fields.take ds.length).map Field.name) {b : β}
    (hdefault : slot.default? = some b) : part a = b := by
  obtain ⟨r, hr, hget⟩ := h.record hread
  obtain ⟨-, -, -, -, rfl⟩ := Record.addItems_eq_ok_iff.mp hr
  have hnone : ((Record.listed fields ds).reverse ++ []).lookup slot.field.name = none := by
    rw [List.append_nil, lookup_reverse (Record.listed_once h.plain ds),
      lookup_eq_none_iff_notMem, Record.keys_listed]
    exact hshort
  rw [Record.get_of_lookup_eq_none hnone hdefault] at hget
  exact (Except.ok.inj hget).symm

theorem length_le_of_read (h : read.Takes fields slot part) {ds : List Document}
    (hread : read (.array ds closed) = .ok a) : ds.length ≤ fields.length := by
  obtain ⟨r, hr, -⟩ := h.record hread
  exact (Record.addItems_eq_ok_iff.mp hr).2.1

theorem read_of_fits (h : read.Takes fields slot part) (hfits : Record.Fits fields ms) :
    ∃ a, read (.object ms true) = .ok a :=
  h.total (Record.ofDocument_object_eq_ok_iff.mpr ⟨rfl, hfits, rfl⟩)

end Reading.Takes

/-- A field of a record, and the part of the whole value that it is read as. -/
structure Column (α : Type) where
  {β : Type}
  slot : Slot β
  part : α → β

def Column.field {α : Type} (c : Column α) : Field :=
  c.slot.field

namespace Record

variable {α : Type}

/-- The fields of the columns are got from a record one after the other, and make
up a value. `known` says what is settled of the value by then. -/
inductive Gets : List (Column α) → (α → Prop) → (Record → Except Fault α) → Prop
  | done {known : α → Prop} {a : α} : (∀ a', known a' ↔ a' = a) → Gets [] known fun _ => .ok a
  | get {β : Type} {slot : Slot β} {part : α → β} {columns : List (Column α)} {known : α → Prop}
      {next : β → Record → Except Fault α} :
      (∀ b, Gets columns (fun a => known a ∧ part a = b) (next b)) →
      Gets (⟨slot, part⟩ :: columns) known fun r => r.get slot >>= fun b => next b r

variable {columns : List (Column α)} {known : α → Prop} {next : Record → Except Fault α}
  {r : Record}

theorem Gets.eq_ok_iff (h : Gets columns known next) {a : α} :
    next r = .ok a ↔ known a ∧ ∀ c ∈ columns, r.get c.slot = .ok (c.part a) := by
  induction h with
  | done hknown => simp [hknown, eq_comm]
  | get _ ih =>
    rw [bind_eq_ok_iff, List.forall_mem_cons]
    constructor
    · rintro ⟨b, hb, ha⟩
      obtain ⟨⟨hknown, rfl⟩, hrest⟩ := (ih b).mp ha
      exact ⟨hknown, hb, hrest⟩
    · rintro ⟨hknown, hb, hrest⟩
      exact ⟨_, hb, (ih _).mpr ⟨⟨hknown, rfl⟩, hrest⟩⟩

theorem Gets.isOk (h : Gets columns known next)
    (hgets : ∀ c ∈ columns, ∃ b, r.get c.slot = .ok b) : ∃ a, next r = .ok a := by
  induction h with
  | done => exact ⟨_, rfl⟩
  | get _ ih =>
    rw [List.forall_mem_cons] at hgets
    obtain ⟨⟨b, hb⟩, hrest⟩ := hgets
    obtain ⟨a, ha⟩ := ih b hrest
    exact ⟨a, bind_eq_ok_iff.mpr ⟨b, hb, ha⟩⟩

end Record

/-- A reading of records that have these columns. -/
def Reading.Gathers {α : Type} (read : Reading α) (columns : List (Column α)) : Prop :=
  ∃ next, (∀ d, read d = Record.ofDocument (columns.map Column.field) d >>= next) ∧
    Record.Gets columns (fun _ => True) next

namespace Reading.Gathers

variable {α : Type} {read : Reading α} {columns : List (Column α)} {d : Document}

/-- What is read of a record is the value whose parts its fields have. -/
theorem eq_ok_iff (h : read.Gathers columns) {a : α} :
    read d = .ok a ↔ ∃ r, Record.ofDocument (columns.map Column.field) d = .ok r ∧
      ∀ c ∈ columns, r.get c.slot = .ok (c.part a) := by
  obtain ⟨next, hread, hgets⟩ := h
  simp only [hread, bind_eq_ok_iff, hgets.eq_ok_iff, true_and]

theorem isOk_of_record (h : read.Gathers columns) (hplain : Field.Plain (columns.map Column.field))
    {r : Record} (hr : Record.ofDocument (columns.map Column.field) d = .ok r) :
    ∃ a, read d = .ok a := by
  obtain ⟨next, hread, hgets⟩ := h
  have hsound := Record.ofDocument_sound hplain hr
  rw [hread, hr, ok_bind]
  exact hgets.isOk fun c hc => hsound.get_isOk (List.mem_map_of_mem hc)

theorem takes (h : read.Gathers columns) (hplain : Field.Plain (columns.map Column.field))
    {β : Type} {slot : Slot β} {part : α → β} (hmem : ⟨slot, part⟩ ∈ columns) :
    read.Takes (columns.map Column.field) slot part where
  plain := hplain
  mem := List.mem_map_of_mem (f := Column.field) hmem
  record hread := by
    obtain ⟨r, hr, hparts⟩ := h.eq_ok_iff.mp hread
    exact ⟨r, hr, hparts _ hmem⟩
  total hr := h.isOk_of_record hplain hr

end Reading.Gathers

section Texts

variable {α : Type} {read : Reading α} {body : Bytes} {a : α}

theorem readText_eq_ok_iff :
    readText read body = .ok a ↔ ∃ d, ofText body = (d, true) ∧ read d = .ok a := by
  unfold readText
  generalize ofText body = outline
  obtain ⟨d, alone⟩ := outline
  cases hread : read d with
  | error fault => simp [hread]
  | ok b => cases alone <;> simp [hread]

theorem readText_map {β : Type} {g : α → β} {b : β} :
    readText (fun d => (read d).map g) body = .ok b ↔
      ∃ a, readText read body = .ok a ∧ g a = b := by
  simp only [readText_eq_ok_iff, map_eq_ok_iff]
  constructor
  · rintro ⟨d, hbody, a, ha, hg⟩
    exact ⟨a, ⟨d, hbody, ha⟩, hg⟩
  · rintro ⟨a, ⟨d, hbody, ha⟩, hg⟩
    exact ⟨d, hbody, a, ha, hg⟩

end Texts

end VideoGateway.Document

import Mathlib.Data.List.Forall2
import VideoGateway.Proofs.Json.Members
import VideoGateway.Proofs.Json.Respect

/-!
# Values that are kept are read as their texts

A text that is a JSON value may be kept as this value and be read again later.
The value has lost the order of the members and the earlier ones of repeated
keys. A reading that succeeds on the text does not see this: it succeeds on the
value as well, and gives the same.
-/
namespace VideoGateway.Document

section Embedding

theorem ofMembers_eq_map (ms : List (String × Json)) :
    ofMembers ms = ms.map fun m => (some m.1, ofJson m.2) := by
  induction ms with
  | nil => rfl
  | cons m ms ih => rw [ofMembers, ih, List.map_cons]

mutual

theorem intact_ofJson : ∀ v : Json, (ofJson v).intact = true
  | .null | .bool _ | .num _ | .str _ => rfl
  | .arr items => by simp [ofJson, intact, itemsIntact_ofItems items]
  | .obj members => by simp [ofJson, intact, membersIntact_ofMembers members]

theorem itemsIntact_ofItems : ∀ vs : List Json, itemsIntact (ofItems vs) = true
  | [] => rfl
  | v :: vs => by simp [ofItems, itemsIntact, intact_ofJson v, itemsIntact_ofItems vs]

theorem membersIntact_ofMembers : ∀ ms : List (String × Json), membersIntact (ofMembers ms) = true
  | [] => rfl
  | (_, v) :: ms => by simp [ofMembers, membersIntact, intact_ofJson v, membersIntact_ofMembers ms]

end

end Embedding

/-- The second document is that of the value of the first one. -/
def Rereads (d e : Document) : Prop :=
  ∃ room v, d.toJson? room = some v ∧ e = ofJson v

section Containers

variable {room : Nat} {ds : List Document} {ms : List (Option String × Document)}

theorem rereads_of_itemsToJson? {vs : List Json} (h : itemsToJson? room ds = some vs) :
    List.Forall₂ Rereads ds (ofItems vs) := by
  induction ds generalizing vs with
  | nil => cases h; exact .nil
  | cons d ds ih =>
    unfold itemsToJson? at h
    split at h
    · next v vs hv hvs =>
      cases h
      exact .cons ⟨room, v, hv, rfl⟩ (ih hvs)
    · cases h

theorem membersToJson?_spec {pairs : List (String × Json)}
    (h : membersToJson? room ms = some pairs) :
    (∀ key d, (some key, d) ∈ ms → ∃ v, d.toJson? room = some v ∧ (key, v) ∈ pairs) ∧
      ∀ key v, (key, v) ∈ pairs → ∃ d, d.toJson? room = some v ∧ (some key, d) ∈ ms := by
  induction ms generalizing pairs with
  | nil => cases h; simp
  | cons m ms ih =>
    obtain ⟨key, d⟩ := m
    unfold membersToJson? at h
    split at h
    · next k v pairs hv hpairs =>
      cases h
      obtain ⟨hto, hfrom⟩ := ih hpairs
      constructor
      · intro key' d' hmem
        rcases List.mem_cons.mp hmem with heq | hmem
        · obtain ⟨hkey, rfl⟩ := Prod.mk.inj heq
          cases hkey
          exact ⟨v, hv, List.mem_cons_self⟩
        · obtain ⟨v', hv', hmem'⟩ := hto key' d' hmem
          exact ⟨v', hv', List.mem_cons_of_mem _ hmem'⟩
      · intro key' v' hmem
        rcases List.mem_cons.mp hmem with heq | hmem
        · obtain ⟨rfl, rfl⟩ := Prod.mk.inj heq
          exact ⟨d, hv, List.mem_cons_self⟩
        · obtain ⟨d', hd', hmem'⟩ := hfrom key' v' hmem
          exact ⟨d', hd', List.mem_cons_of_mem _ hmem'⟩
    · cases h

end Containers

namespace Reading

variable {α : Type}

/-- What succeeds on a text gives the same on its value. -/
def Stable (read : Reading α) : Prop :=
  ∀ {d e a}, Rereads d e → read d = .ok a → read e = .ok a

theorem string_stable : string.Stable := by
  rintro d e a ⟨room, v, hv, rfl⟩ h
  unfold string at h
  split at h
  · cases hv; exact h
  · cases h

theorem integer_stable (least greatest : Int) : (integer least greatest).Stable := by
  rintro d e a ⟨room, v, hv, rfl⟩ h
  unfold integer at h
  split at h
  · cases hv; exact h
  · cases h

theorem natural_stable (greatest : Nat) : (natural greatest).Stable := by
  rintro d e a ⟨room, v, hv, rfl⟩ h
  unfold natural at h
  split at h
  · cases hv; exact h
  · cases h

theorem eq_null_of_rereads {d : Document} (h : Rereads d .null) : d = .null := by
  obtain ⟨room, v, hv, he⟩ := h
  cases v <;> cases he
  cases d with
  | null => rfl
  | number n => cases n <;> cases hv
  | string s => cases s <;> cases hv
  | array items closed =>
    cases room with
    | zero => cases hv
    | succ room => cases closed <;> simp [toJson?] at hv
  | object members closed =>
    cases room with
    | zero => cases hv
    | succ room => cases closed <;> simp [toJson?] at hv
  | _ => cases hv

theorem option_stable {read : Reading α} (h : read.Stable) : (option read).Stable := by
  intro d e a hde hread
  by_cases hd : d = .null
  · subst hd
    obtain ⟨room, v, hv, rfl⟩ := hde
    cases hv
    exact hread
  · have he : e ≠ .null := by
      rintro rfl
      exact hd (eq_null_of_rereads hde)
    rw [option_eq_map hd] at hread
    obtain ⟨b, hb, rfl⟩ := map_eq_ok_iff.mp hread
    rw [option_eq_map he]
    exact map_eq_ok_iff.mpr ⟨b, h hde hb, rfl⟩

end Reading

/-- What is checked on a text is checked on its value. -/
def Field.Stable (f : Field) : Prop :=
  ∀ {d e}, Rereads d e → f.check d = .ok () → f.check e = .ok ()

namespace Record

variable {fields : List Field} {ds es : List Document} {r : Record} {d e : Document}

section Objects

variable {room : Nat} {ms : List (Option String × Document)} {pairs : List (String × Json)}

theorem rereads_of_mem_ofMembers (hpairs : membersToJson? room ms = some pairs)
    {m : Option String × Document} (hm : m ∈ ofMembers (Json.Members.ofList pairs)) :
    ∃ key d, m.1 = some key ∧ Rereads d m.2 ∧ (some key, d) ∈ ms := by
  rw [ofMembers_eq_map] at hm
  obtain ⟨⟨key, v⟩, hmem, rfl⟩ := List.mem_map.mp hm
  obtain ⟨d, hd, hmem⟩ :=
    (membersToJson?_spec hpairs).2 key v (Json.Members.mem_of_mem_ofList hmem)
  exact ⟨key, d, rfl, ⟨room, v, hd, rfl⟩, hmem⟩

theorem mem_ofMembers_of_once (hpairs : membersToJson? room ms = some pairs) {key : String}
    {d : Document} (hmem : (some key, d) ∈ ms) (honly : ∀ d', (some key, d') ∈ ms → d' = d) :
    ∃ e, Rereads d e ∧ (some key, e) ∈ ofMembers (Json.Members.ofList pairs) := by
  obtain ⟨hto, hfrom⟩ := membersToJson?_spec hpairs
  obtain ⟨v, hv, hpair⟩ := hto key d hmem
  have hget : (Json.Members.ofList pairs).get? key = some v := by
    refine Json.Members.get?_ofList_of_mem hpair fun v' hv' => ?_
    obtain ⟨d', hd', hmem'⟩ := hfrom key v' hv'
    rw [honly d' hmem'] at hd'
    exact Option.some.inj (hd'.symm.trans hv)
  refine ⟨ofJson v, ⟨room, v, hv, rfl⟩, ?_⟩
  rw [ofMembers_eq_map]
  exact List.mem_map_of_mem (f := fun m => (some m.1, ofJson m.2)) (mem_of_lookup_eq_some hget)

theorem given_keys_sublist (hplain : Field.Plain fields)
    (ms : List (Option String × Document)) :
    (List.map Prod.fst (given fields ms)).Sublist (ms.filterMap Prod.fst) := by
  induction ms with
  | nil => exact .slnil
  | cons m ms ih =>
    obtain ⟨key, d⟩ := m
    cases key with
    | none => simpa [given, Field.of?] using ih
    | some key =>
      cases hof : Field.of? fields (some key) with
      | none => simpa [given, hof] using ih.cons key
      | some f =>
        obtain rfl : key = f.name := Option.some.inj (hplain.of?_eq_some_iff.mp hof).2
        have hgiven : given fields ((some f.name, d) :: ms) = (f.name, d) :: given fields ms := by
          simp [given, hof]
        simpa [hgiven] using ih

theorem given_ofMembers_nodup (hplain : Field.Plain fields) {members : Json.Members}
    (hsorted : members.Sorted) : (List.map Prod.fst (given fields (ofMembers members))).Nodup := by
  refine List.Nodup.sublist (given_keys_sublist hplain _) ?_
  rw [ofMembers_eq_map, List.filterMap_map]
  simpa [Function.comp_def] using hsorted.keys_nodup

theorem given_ofMembers_once (hplain : Field.Plain fields) (pairs : List (String × Json)) :
    (List.map Prod.fst (given fields (ofMembers (Json.Members.ofList pairs)))).Nodup :=
  given_ofMembers_nodup hplain (Json.Members.ofList_sorted pairs)

theorem lookup_given_rereads (hplain : Field.Plain fields) (h : Fits fields ms)
    (hpairs : membersToJson? room ms = some pairs) {f : Field} (hf : f ∈ fields) :
    Option.Rel Rereads ((given fields ms).lookup f.name)
      ((given fields (ofMembers (Json.Members.ofList pairs))).lookup f.name) := by
  have hvalue (e : Document) : (given fields (ofMembers (Json.Members.ofList pairs))).lookup
      f.name = some e ↔ (some f.name, e) ∈ ofMembers (Json.Members.ofList pairs) := by
    rw [lookup_eq_some_iff_mem (given_ofMembers_once hplain pairs), mem_given_iff hplain]
    exact ⟨fun hmem => hmem.1, fun hmem => ⟨hmem, f, hf, rfl⟩⟩
  -- The name of a field stands once in the text, so the value keeps this very member.
  cases hd : (given fields ms).lookup f.name with
  | some d =>
    have hmem : (some f.name, d) ∈ ms := (h.lookup_eq_some_iff hplain hf).mp hd
    obtain ⟨e, hde, hmem'⟩ := mem_ofMembers_of_once hpairs hmem fun d' hmem' =>
      Option.some.inj (((h.lookup_eq_some_iff hplain hf).mpr hmem').symm.trans hd)
    rw [(hvalue e).mpr hmem']
    exact .some hde
  | none =>
    cases he : (given fields (ofMembers (Json.Members.ofList pairs))).lookup f.name with
    | none => exact .none
    | some e =>
      obtain ⟨key, d, hkey, -, hmem⟩ := rereads_of_mem_ofMembers hpairs ((hvalue e).mp he)
      cases hkey
      have hsome := (h.lookup_eq_some_iff hplain hf).mpr hmem
      cases hd.symm.trans hsome

theorem Fits.rereads (hplain : Field.Plain fields) (hstable : ∀ f ∈ fields, f.Stable)
    (h : Fits fields ms) (hpairs : membersToJson? room ms = some pairs) :
    Fits fields (ofMembers (Json.Members.ofList pairs)) := by
  refine ⟨fun m hm => ?_, given_ofMembers_once hplain pairs, fun f hf hneeded => ?_⟩
  · obtain ⟨key, d, hkey, hrereads, hmem⟩ := rereads_of_mem_ofMembers hpairs hm
    have hsuits := h.suits _ hmem
    refine ⟨by simp [hkey], fun f hof => ?_, fun _ => ?_⟩
    · rw [hkey] at hof
      exact hstable f (Field.mem_of_of? hof) hrereads (hsuits.check f hof)
    · obtain ⟨_, v, -, hv⟩ := hrereads
      rw [hv]
      exact intact_ofJson v
  · obtain ⟨d, hd⟩ := Option.isSome_iff_exists.mp (h.complete f hf hneeded)
    have hrel := lookup_given_rereads hplain h hpairs hf
    rw [hd] at hrel
    generalize (given fields (ofMembers (Json.Members.ofList pairs))).lookup f.name = found at hrel ⊢
    cases hrel
    rfl

theorem lookup_given_ofMembers (hplain : Field.Plain fields) {members : Json.Members}
    (hsorted : members.Sorted) {f : Field} (hf : f ∈ fields) :
    (given fields (ofMembers members)).lookup f.name = (members.get? f.name).map ofJson := by
  apply Option.ext
  intro e
  rw [lookup_eq_some_iff_mem (given_ofMembers_nodup hplain hsorted), mem_given_iff hplain,
    ofMembers_eq_map, Option.map_eq_some_iff]
  constructor
  · rintro ⟨hmem, -⟩
    obtain ⟨⟨key, v⟩, hentry, heq⟩ := List.mem_map.mp hmem
    obtain ⟨hkey, rfl⟩ := Prod.mk.inj heq
    obtain rfl : key = f.name := Option.some.inj hkey
    exact ⟨v, hsorted.get?_eq_some_iff.mpr hentry, rfl⟩
  · rintro ⟨v, hv, rfl⟩
    have hmem := List.mem_map_of_mem (f := fun m => (some m.1, ofJson m.2))
      (hsorted.get?_eq_some_iff.mp hv)
    exact ⟨hmem, f, hf, rfl⟩

/-- Setting a field that is no needed one to a value of its type. -/
theorem Fits.insert (hplain : Field.Plain fields) {members : Json.Members}
    (hsorted : members.Sorted) {f : Field} (hf : f ∈ fields) {v : Json}
    (hcheck : f.check (ofJson v) = .ok ()) (h : Fits fields (ofMembers members)) :
    Fits fields (ofMembers (Json.Members.insert f.name v members)) := by
  have hsorted' := hsorted.insert f.name v
  refine ⟨?_, given_ofMembers_nodup hplain hsorted', ?_⟩
  · intro m hm
    rw [ofMembers_eq_map] at hm
    obtain ⟨entry, hentry, rfl⟩ := List.mem_map.mp hm
    rcases Json.Members.mem_insert hentry with rfl | hentry
    · refine ⟨rfl, fun g hg => ?_, fun _ => intact_ofJson v⟩
      obtain ⟨hmem, hname⟩ := hplain.of?_eq_some_iff.mp hg
      obtain rfl : f = g := hplain.eq_of_name_eq hf hmem (Option.some.inj hname)
      exact hcheck
    · apply h.suits
      rw [ofMembers_eq_map]
      exact List.mem_map_of_mem (f := fun m => (some m.1, ofJson m.2)) hentry
  · intro g hg hneeded
    have hgiven := h.complete g hg hneeded
    rw [lookup_given_ofMembers hplain hsorted hg, Option.isSome_map] at hgiven
    rw [lookup_given_ofMembers hplain hsorted' hg, Option.isSome_map,
      Json.Members.get?_insert]
    split
    · rfl
    · exact hgiven

theorem get_congr {α : Type} {slot : Slot α} {r' : Record}
    (h : r'.lookup slot.field.name = r.lookup slot.field.name) : r'.get slot = r.get slot := by
  have h : r'.lookup (slot.names.headD "") = r.lookup (slot.names.headD "") := h
  rw [get, get, h]

theorem ofDocument_insert {α : Type} (hplain : Field.Plain fields) {members : Json.Members}
    (hsorted : members.Sorted) {slot : Slot α} (hmem : slot.field ∈ fields) {v : Json} {a : α}
    (hread : slot.read (ofJson v) = .ok a)
    (h : ofDocument fields (ofJson (.obj members)) = .ok r) :
    ∃ r', ofDocument fields (ofJson (.obj (Json.Members.insert slot.field.name v members))) = .ok r' ∧
      r'.get slot = .ok a ∧ ∀ {β : Type} (other : Slot β), other.field ∈ fields →
        other.field.name ≠ slot.field.name → r'.get other = r.get other := by
  obtain ⟨-, hfits, rfl⟩ := ofDocument_object_eq_ok_iff.mp h
  have hcheck : slot.field.check (ofJson v) = .ok () := map_eq_ok_iff.mpr ⟨a, hread, rfl⟩
  have hsorted' := hsorted.insert slot.field.name v
  have hfits' := hfits.insert hplain hsorted hmem hcheck
  have hlookup : ∀ f ∈ fields, List.lookup f.name (given fields
      (ofMembers (Json.Members.insert slot.field.name v members))).reverse =
      if f.name = slot.field.name then some (ofJson v)
      else (given fields (ofMembers members)).reverse.lookup f.name := by
    intro f hf
    rw [lookup_reverse hfits'.once, lookup_reverse hfits.once,
      lookup_given_ofMembers hplain hsorted hf, lookup_given_ofMembers hplain hsorted' hf,
      Json.Members.get?_insert]
    split <;> rfl
  refine ⟨_, ofDocument_object_eq_ok_iff.mpr ⟨rfl, hfits', rfl⟩, ?_, fun other hother hne => ?_⟩
  · have hself := hlookup _ hmem
    rw [if_pos rfl] at hself
    rw [get_of_lookup hself, hread]
  · have hkept := hlookup _ hother
    rw [if_neg hne] at hkept
    exact get_congr hkept

end Objects

/-- The fields of the second record are those of the first one, read again. -/
def Kept (fields : List Field) (r r' : Record) : Prop :=
  ∀ f ∈ fields, Option.Rel Rereads (r.lookup f.name) (r'.lookup f.name)

/-- A record of a text is kept as a record of its value. -/
theorem ofDocument_rereads (hplain : Field.Plain fields) (hstable : ∀ f ∈ fields, f.Stable)
    (hde : Rereads d e) (h : ofDocument fields d = .ok r) :
    ∃ r', ofDocument fields e = .ok r' ∧ Kept fields r r' := by
  obtain ⟨room, v, hv, rfl⟩ := hde
  cases d with
  | object ms closed =>
    obtain ⟨rfl, hfits, rfl⟩ := ofDocument_object_eq_ok_iff.mp h
    cases room with
    | zero => cases hv
    | succ room =>
      obtain ⟨pairs, hpairs, rfl⟩ := Option.map_eq_some_iff.mp hv
      have hfits' := hfits.rereads hplain hstable hpairs
      refine ⟨_, ofDocument_object_eq_ok_iff.mpr ⟨rfl, hfits', rfl⟩, fun f hf => ?_⟩
      rw [lookup_reverse hfits.once, lookup_reverse hfits'.once]
      exact lookup_given_rereads hplain hfits hpairs hf
  | array ds closed =>
    cases room with
    | zero => cases hv
    | succ room =>
      cases closed with
      | false => cases hv
      | true =>
        obtain ⟨vs, hvs, rfl⟩ := Option.map_eq_some_iff.mp hv
        exact ofDocument_array_rel hplain hstable (rereads_of_itemsToJson? hvs) h
  | _ => cases h

end Record

theorem rereads_faithful : Faithful Rereads where
  string := Reading.string_stable
  natural _ := Reading.natural_stable _
  signed64 := Reading.integer_stable _ _
  option _ := Reading.option_stable
  record := Record.ofDocument_rereads

/-- Setting a field of an object to what another value has there, where the two
values are alike otherwise. -/
theorem Reading.Gathers.readJson_insert {α β : Type} {read : Reading α} {columns : List (Column α)}
    {slot : Slot β} {part : α → β} {members : Json.Members} {v : Json} {a a' : α}
    (h : read.Gathers columns) (hplain : Field.Plain (columns.map Column.field))
    (hmem : ⟨slot, part⟩ ∈ columns) (hsorted : members.Sorted)
    (hself : slot.read (ofJson v) = .ok (part a'))
    (hother : ∀ c ∈ columns, c.field.name ≠ slot.field.name → c.part a' = c.part a)
    (hread : readJson read (.obj members) = .ok a) :
    readJson read (.obj (Json.Members.insert slot.field.name v members)) = .ok a' := by
  obtain ⟨r, hr, hparts⟩ := h.eq_ok_iff.mp hread
  obtain ⟨r', hr', hset, hkept⟩ := Record.ofDocument_insert hplain hsorted
    (List.mem_map_of_mem (f := Column.field) hmem) hself hr
  refine h.eq_ok_iff.mpr ⟨r', hr', fun c hc => ?_⟩
  by_cases hname : c.field.name = slot.field.name
  · have hnodup : (columns.map (Field.name ∘ Column.field)).Nodup := by
      simpa using hplain.nodup
    obtain rfl : c = ⟨slot, part⟩ := List.inj_on_of_nodup_map hnodup hc hmem hname
    exact hset
  · rw [hkept c.slot (List.mem_map_of_mem (f := Column.field) hc) hname, hparts c hc,
      hother c hc hname]

/-- A text that was read and is a value is read in the same way as the value. -/
theorem readJson_of_parse? {α : Type} {read : Reading α} (hread : read.Stable) {text : Bytes}
    {a : α} {v : Json} (h : readText read text = .ok a) (hv : Json.parse? text = some v) :
    readJson read v = .ok a := by
  obtain ⟨d, htext, ha⟩ := readText_eq_ok_iff.mp h
  simp only [Json.parse?, htext, ↓reduceIte] at hv
  exact hread ⟨_, v, hv, rfl⟩ ha

theorem sorted_of_toJson? {room : Nat} {d : Document} {members : Json.Members}
    (h : d.toJson? room = some (.obj members)) : members.Sorted := by
  cases d with
  | object ms closed =>
    cases room with
    | zero => cases h
    | succ room =>
      cases closed with
      | false => cases h
      | true =>
        obtain ⟨pairs, -, heq⟩ := Option.map_eq_some_iff.mp h
        rw [← Json.obj.inj heq]
        exact Json.Members.ofList_sorted pairs
  | array items closed =>
    cases room with
    | zero => cases h
    | succ room =>
      cases closed with
      | false => cases h
      | true =>
        obtain ⟨vs, -, heq⟩ := Option.map_eq_some_iff.mp h
        cases heq
  | number n => cases n <;> cases h
  | string s => cases s <;> cases h
  | _ => cases h

theorem sorted_of_parse? {text : Bytes} {members : Json.Members}
    (h : Json.parse? text = some (.obj members)) : members.Sorted := by
  unfold Json.parse? at h
  generalize ofText text = outline at h
  obtain ⟨d, alone⟩ := outline
  dsimp only at h
  split at h
  · exact sorted_of_toJson? h
  · cases h

end VideoGateway.Document

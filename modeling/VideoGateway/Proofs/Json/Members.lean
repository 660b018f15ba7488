import Mathlib.Data.List.Induction
import Mathlib.Data.String.Basic
import VideoGateway.Generation.Params
import VideoGateway.Proofs.Basic

/-!
# Members of objects

An object that is made of pairs has for each key the value of the last pair with
this key. Its members stand in the strict order of their keys, so it is
determined by the values of all keys.
-/
namespace VideoGateway

namespace Json

namespace Members

variable {pairs : List (String × Json)} {ms ns : Members} {key : String} {value : Json}

theorem get?_insert (key : String) (value : Json) (ms : Members) (other : String) :
    (insert key value ms).get? other = if other = key then some value else ms.get? other := by
  split
  · next h => rw [h, get?_insert_self]
  · next h => exact get?_insert_of_ne h value ms

theorem get?_eq_none_of_forall_ne (h : ∀ m ∈ ms, m.1 ≠ key) : ms.get? key = none := by
  rw [get?, lookup_eq_none_iff_notMem]
  intro hkey
  obtain ⟨m, hm, hname⟩ := List.mem_map.mp hkey
  exact h m hm hname

theorem mem_insert {m : String × Json} (h : m ∈ insert key value ms) :
    m = (key, value) ∨ m ∈ ms := by
  induction ms with
  | nil => exact .inl (List.mem_singleton.mp h)
  | cons entry ms ih =>
    obtain ⟨k, v⟩ := entry
    unfold insert at h
    split at h
    · exact (List.mem_cons.mp h).imp_right (List.mem_cons_of_mem _)
    · split at h
      · exact List.mem_cons.mp h
      · rcases List.mem_cons.mp h with rfl | h
        · exact .inr List.mem_cons_self
        · exact (ih h).imp_right (List.mem_cons_of_mem _)

theorem ofList_append_singleton (pairs : List (String × Json)) (key : String) (value : Json) :
    ofList (pairs ++ [(key, value)]) = insert key value (ofList pairs) := by
  simp [ofList]

theorem get?_ofList (pairs : List (String × Json)) (key : String) :
    (ofList pairs).get? key = pairs.reverse.lookup key := by
  induction pairs using List.reverseRecOn with
  | nil => rfl
  | append_singleton pairs pair ih =>
    obtain ⟨k, v⟩ := pair
    rw [ofList_append_singleton, get?_insert, ih, List.reverse_append]
    by_cases h : key = k
    · simp [h]
    · have hb : (key == k) = false := by simpa using h
      simp [h, hb, List.lookup_cons]

theorem mem_of_mem_ofList {m : String × Json} (h : m ∈ ofList pairs) : m ∈ pairs := by
  induction pairs using List.reverseRecOn with
  | nil => exact h
  | append_singleton pairs pair ih =>
    rw [ofList_append_singleton] at h
    rcases mem_insert h with rfl | h
    · exact List.mem_append_right _ (List.mem_singleton.mpr rfl)
    · exact List.mem_append_left _ (ih h)

theorem get?_ofList_of_mem (hmem : (key, value) ∈ pairs)
    (honly : ∀ v, (key, v) ∈ pairs → v = value) : (ofList pairs).get? key = some value := by
  rw [get?_ofList]
  cases hlookup : pairs.reverse.lookup key with
  | none =>
    have hkey := lookup_eq_none_iff_notMem.mp hlookup
    exact absurd (List.mem_map_of_mem (List.mem_reverse.mpr hmem)) hkey
  | some v => rw [honly v (List.mem_reverse.mp (mem_of_lookup_eq_some hlookup))]

/-- The members stand in the strict order of their keys. -/
def Sorted (ms : Members) : Prop :=
  ms.Pairwise fun m n => m.1 < n.1

theorem Sorted.insert (h : ms.Sorted) (key : String) (value : Json) :
    (Members.insert key value ms).Sorted := by
  induction ms with
  | nil => exact List.pairwise_singleton _ _
  | cons entry ms ih =>
    obtain ⟨k, v⟩ := entry
    obtain ⟨hfirst, hrest⟩ := List.pairwise_cons.mp h
    unfold Members.insert
    split
    · next heq => exact List.pairwise_cons.mpr ⟨heq ▸ hfirst, hrest⟩
    · next hne =>
      split
      · next hlt =>
        refine List.pairwise_cons.mpr ⟨fun m hm => ?_, h⟩
        rcases List.mem_cons.mp hm with rfl | hm
        · exact hlt
        · exact lt_trans hlt (hfirst m hm)
      · next hnot =>
        refine List.pairwise_cons.mpr ⟨fun m hm => ?_, ih hrest⟩
        rcases mem_insert hm with rfl | hm
        · exact lt_of_le_of_ne (not_lt.mp hnot) (Ne.symm hne)
        · exact hfirst m hm

theorem ofList_sorted (pairs : List (String × Json)) : (ofList pairs).Sorted := by
  induction pairs using List.reverseRecOn with
  | nil => exact .nil
  | append_singleton pairs pair ih =>
    rw [ofList_append_singleton]
    exact ih.insert _ _

theorem Sorted.keys_nodup (h : ms.Sorted) : (ms.map Prod.fst).Nodup :=
  List.pairwise_map.mpr (h.imp fun hlt => ne_of_lt hlt)

theorem Sorted.get?_eq_some_iff (h : ms.Sorted) : ms.get? key = some value ↔ (key, value) ∈ ms :=
  lookup_eq_some_iff_mem h.keys_nodup

theorem Sorted.ext (hms : ms.Sorted) (hns : ns.Sorted) (h : ∀ key, ms.get? key = ns.get? key) :
    ms = ns := by
  have hmem : ∀ m, m ∈ ms ↔ m ∈ ns := by
    rintro ⟨key, value⟩
    rw [← hms.get?_eq_some_iff, ← hns.get?_eq_some_iff, h]
  have hperm : ms.Perm ns :=
    (List.perm_ext_iff_of_nodup hms.keys_nodup.of_map hns.keys_nodup.of_map).mpr hmem
  exact hperm.eq_of_pairwise (fun m n _ _ hmn hnm => absurd hmn (lt_asymm hnm)) hms hns

end Members

theorem member?_object (pairs : List (String × Json)) (key : String) :
    (object pairs).member? key = pairs.reverse.lookup key :=
  Members.get?_ofList pairs key

section Append

variable {pairs pairs' : List (String × Json)} {ms ns : Members} {keys : List String}

theorem object_ext (h : ∀ key, (object pairs).member? key = (object pairs').member? key) :
    object pairs = object pairs' :=
  congrArg obj ((Members.ofList_sorted pairs).ext (Members.ofList_sorted pairs') h)

theorem lookup_eq_of_object_eq (h : object pairs = object pairs') (key : String) :
    pairs.reverse.lookup key = pairs'.reverse.lookup key := by
  rw [← member?_object, h, member?_object]

theorem member?_object_append (hms : ms.Sorted) (key : String) :
    (object (pairs ++ ms)).member? key = (ms.get? key).or ((object pairs).member? key) := by
  rw [member?_object, member?_object, List.reverse_append, List.lookup_append,
    lookup_reverse hms.keys_nodup, Members.get?]

theorem member?_object_eq_none {key : String} (h : ∀ m ∈ pairs, m.1 ≠ key) :
    (object pairs).member? key = none :=
  Members.get?_eq_none_of_forall_ne fun m hm => h m (Members.mem_of_mem_ofList hm)

theorem member?_object_append_of_mem (hms : ms.Sorted) (hfree : ∀ m ∈ ms, m.1 ∉ keys)
    {key : String} (hkey : key ∈ keys) :
    (object (pairs ++ ms)).member? key = (object pairs).member? key := by
  rw [member?_object_append hms, Members.get?_eq_none_of_forall_ne, Option.none_or]
  exact fun m hm heq => hfree m hm (heq ▸ hkey)

/-- An object tells the members under some keys from those that are added under
others. -/
theorem object_append_inj (hms : ms.Sorted) (hns : ns.Sorted)
    (hpairs : ∀ m ∈ pairs, m.1 ∈ keys) (hpairs' : ∀ m ∈ pairs', m.1 ∈ keys)
    (hfree : ∀ m ∈ ms, m.1 ∉ keys) (hfree' : ∀ m ∈ ns, m.1 ∉ keys)
    (h : object (pairs ++ ms) = object (pairs' ++ ns)) :
    object pairs = object pairs' ∧ ms = ns := by
  have houtside : ∀ {ps : List (String × Json)} {key : String}, (∀ m ∈ ps, m.1 ∈ keys) →
      key ∉ keys → (object ps).member? key = none := fun hps hkey =>
    member?_object_eq_none fun m hm heq => hkey (heq ▸ hps m hm)
  constructor
  · refine object_ext fun key => ?_
    by_cases hkey : key ∈ keys
    · rw [← member?_object_append_of_mem hms hfree hkey, h,
        member?_object_append_of_mem hns hfree' hkey]
    · rw [houtside hpairs hkey, houtside hpairs' hkey]
  · refine hms.ext hns fun key => ?_
    by_cases hkey : key ∈ keys
    · have hnone : ∀ {ls : Members}, (∀ m ∈ ls, m.1 ∉ keys) → ls.get? key = none :=
        fun hls => Members.get?_eq_none_of_forall_ne fun m hm heq => hls m hm (heq ▸ hkey)
      rw [hnone hfree, hnone hfree']
    · have hmember : (object (pairs ++ ms)).member? key = (object (pairs' ++ ns)).member? key := by
        rw [h]
      rw [member?_object_append hms, member?_object_append hns, houtside hpairs hkey,
        houtside hpairs' hkey] at hmember
      simpa using hmember

end Append

section Values

theorem map_str_inj {a b : Option String} : a.map Json.str = b.map .str ↔ a = b :=
  (Option.map_injective fun _ _ => Json.str.inj).eq_iff

theorem map_bool_inj {a b : Option Bool} : a.map Json.bool = b.map .bool ↔ a = b :=
  (Option.map_injective fun _ _ => Json.bool.inj).eq_iff

theorem map_int_inj {a b : Option Int} : a.map Json.int = b.map .int ↔ a = b := by
  refine (Option.map_injective fun m n h => ?_).eq_iff
  simpa [Json.int] using h

theorem nat_inj {m n : Nat} : Json.nat m = .nat n ↔ m = n := by
  simp only [Json.nat, Json.num.injEq, Json.Number.int.injEq, Int.ofNat_inj]

theorem map_nat_inj {a b : Option Nat} : a.map Json.nat = b.map .nat ↔ a = b :=
  (Option.map_injective fun _ _ => nat_inj.mp).eq_iff

theorem map_real_inj {a b : Option Binary64} (ha : ∀ x ∈ a, x.isFinite = true)
    (hb : ∀ x ∈ b, x.isFinite = true) : a.map Json.real = b.map .real ↔ a = b := by
  have hkept : ∀ {c : Option Binary64}, (∀ x ∈ c, x.isFinite = true) →
      c.map Json.real = c.map fun x => .num (.real x) := by
    intro c hc
    exact Option.map_congr fun x hx => by simp [Json.real, hc x hx]
  rw [hkept ha, hkept hb]
  refine (Option.map_injective fun x y h => ?_).eq_iff
  simpa using h

end Values

end Json

namespace Params

variable {α : Type} {name : String} {toJson : α → Json} {value : Option α}

@[simp] theorem lookup_entry (key : String) :
    (entry name toJson value).lookup key = if key = name then value.map toJson else none := by
  cases value with
  | none => simp [entry]
  | some a =>
    by_cases h : key = name
    · simp [entry, h]
    · have hb : (key == name) = false := by simpa using h
      simp [entry, List.lookup_cons, h, hb]

@[simp] theorem reverse_entry :
    (entry name toJson value).reverse = entry name toJson value := by
  cases value <;> rfl

end Params

end VideoGateway

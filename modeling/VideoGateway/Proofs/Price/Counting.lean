import Mathlib.Data.List.FinRange
import Mathlib.Data.List.Nodup
import Mathlib.Data.List.Perm.Lattice
import Mathlib.Data.Multiset.ZeroCons
import VideoGateway.Price.Rules

/-!
# Which rules a price is made of

A rule counts for a price when it matches and no rule of the same identity that
matches stands before it. The price is the product of the rules that count, so a
rule that does not count may as well be left out. The order of the rules decides
nothing but which one of several rules of one identity counts: the factors of the
price are the same in every order exactly when such rules have the same ratio.
-/
namespace VideoGateway

namespace PriceRule

variable {r s : PriceRule} {model : String} {params : Json.Members}

/-- The pattern stands for the model, and the parameter is there with a value that
is not `null` and has the form that the rule asks for. -/
structure Matches (r : PriceRule) (model : String) (params : Json.Members) : Prop where
  model : (Pattern.parse r.model).accepts model = true
  value : ∃ v, params.get? r.key = some v ∧ v ≠ .null ∧ comparable? v = some r.value

theorem comparable?_eq_none_iff {v : Json} : comparable? v = none ↔ v = .null := by
  constructor
  · intro h
    unfold comparable? at h
    split at h
    case h_1 => rfl
    case h_5 =>
      split at h
      · split at h <;> cases h
      · cases h
    all_goals cases h
  · intro h
    rw [h]
    rfl

theorem applies_iff : r.applies model params = true ↔ r.Matches model params := by
  rw [applies, Bool.and_eq_true, beq_iff_eq, Option.bind_eq_some_iff]
  constructor
  · rintro ⟨hmodel, v, hget, hform⟩
    have hnull : v ≠ .null := by
      intro hv
      rw [comparable?_eq_none_iff.mpr hv] at hform
      cases hform
    exact ⟨hmodel, v, hget, hnull, hform⟩
  · rintro ⟨hmodel, v, hget, -, hform⟩
    exact ⟨hmodel, v, hget, hform⟩

instance : Decidable (r.Matches model params) :=
  decidable_of_iff _ applies_iff

theorem Matches.of_identity (h : r.Matches model params) (hid : r.identity = s.identity) :
    s.Matches model params := by
  obtain ⟨hmodel, hkey, hvalue⟩ : r.model = s.model ∧ r.key = s.key ∧ r.value = s.value := by
    simpa [identity] using hid
  obtain ⟨haccepts, hform⟩ := h
  exact ⟨hmodel ▸ haccepts, hkey ▸ hvalue ▸ hform⟩

theorem eq_of_identity (hid : r.identity = s.identity) (hratio : r.ratio = s.ratio) : r = s := by
  cases r
  cases s
  simp_all [identity]

end PriceRule

namespace PriceRules

open PriceRule (Matches)

section Counting

variable {model : String} {params : Json.Members} {rules rules' : List PriceRule}
variable {r s : PriceRule} {seen : List (String × String × String)}

/-- Rule number `i` matches, and no rule of its identity before it does. -/
def Counts (rules : List PriceRule) (model : String) (params : Json.Members)
    (i : Fin rules.length) : Prop :=
  rules[i].Matches model params ∧
    ∀ j < i, rules[j].Matches model params → rules[j].identity ≠ rules[i].identity

instance (i : Fin rules.length) : Decidable (Counts rules model params i) :=
  inferInstanceAs (Decidable (_ ∧ _))

def counted (rules : List PriceRule) (model : String) (params : Json.Members) : List PriceRule :=
  ((List.finRange rules.length).filter fun i => Counts rules model params i).map rules.get

theorem counts_zero :
    Counts (r :: rules) model params (0 : Fin (rules.length + 1)) ↔ r.Matches model params := by
  constructor
  · intro h
    exact h.1
  · intro h
    exact ⟨h, fun j hj => absurd hj (Fin.not_lt_zero j)⟩

theorem counts_succ (i : Fin rules.length) :
    Counts (r :: rules) model params i.succ ↔
      Counts rules model params i ∧
        (r.Matches model params → r.identity ≠ rules[i].identity) := by
  have hearlier : (∀ j < i.succ, (r :: rules)[j].Matches model params →
        (r :: rules)[j].identity ≠ rules[i].identity) ↔
      (r.Matches model params → r.identity ≠ rules[i].identity) ∧
        ∀ j < i, rules[j].Matches model params → rules[j].identity ≠ rules[i].identity := by
    rw [Fin.forall_fin_succ]
    simp
  unfold Counts
  constructor
  · rintro ⟨hmatches, h⟩
    obtain ⟨hfirst, hrest⟩ := hearlier.mp h
    exact ⟨⟨hmatches, hrest⟩, hfirst⟩
  · rintro ⟨⟨hmatches, hrest⟩, hfirst⟩
    exact ⟨hmatches, hearlier.mpr ⟨hfirst, hrest⟩⟩

/-- A rule that matches counts, and then bars the later ones of its identity. -/
theorem counted_cons :
    counted (r :: rules) model params =
      if r.Matches model params then
        r :: (counted rules model params).filter fun s => r.identity ≠ s.identity
      else counted rules model params := by
  have hall : List.finRange (r :: rules).length =
      (0 : Fin (rules.length + 1)) :: (List.finRange rules.length).map Fin.succ :=
    List.finRange_succ
  have hrest : ((List.finRange rules.length).map Fin.succ).filter
        (fun i => Counts (r :: rules) model params i) =
      ((List.finRange rules.length).filter fun i => Counts rules model params i ∧
        (r.Matches model params → r.identity ≠ rules[i].identity)).map Fin.succ := by
    rw [List.filter_map]
    simp only [Function.comp_def, counts_succ]
  unfold counted
  rw [hall, List.filter_cons, hrest]
  by_cases h : r.Matches model params
  · simp [h, counts_zero, List.filter_map, List.filter_filter, Function.comp_def,
      Bool.and_comm]
  · simp [h, counts_zero, Function.comp_def]

theorem applied_cons : applied model params seen (r :: rules) =
    if r.Matches model params ∧ r.identity ∉ seen then
      r :: applied model params (r.identity :: seen) rules
    else applied model params seen rules := by
  simp [applied, PriceRule.applies_iff]

/-- Going through the rules keeps those that count, of the identities that were not
seen before. -/
theorem applied_eq_filter : applied model params seen rules =
    (counted rules model params).filter fun s => s.identity ∉ seen := by
  induction rules generalizing seen with
  | nil => rfl
  | cons r rules ih =>
    rw [applied_cons, counted_cons]
    by_cases hmatches : r.Matches model params
    · by_cases hseen : r.identity ∈ seen
      · have hbarred : ∀ s : PriceRule, s.identity ∉ seen → r.identity ≠ s.identity := by
          intro s hs heq
          exact hs (heq ▸ hseen)
        rw [if_neg fun h => h.2 hseen, if_pos hmatches, ih, List.filter_cons_of_neg (by simpa),
          List.filter_filter]
        apply List.filter_congr
        intro s _
        simpa using hbarred s
      · rw [if_pos ⟨hmatches, hseen⟩, if_pos hmatches, ih, List.filter_cons_of_pos (by simpa),
          List.filter_filter]
        apply congrArg (r :: ·)
        apply List.filter_congr
        intro s _
        simp [eq_comm, Bool.and_comm]
    · rw [if_neg fun h => hmatches h.1, if_neg hmatches, ih]

theorem applied_eq_counted : applied model params [] rules = counted rules model params := by
  simp [applied_eq_filter]

/-- A rule that does not match, or comes after a rule of its identity, is passed over. -/
theorem applied_insert (before after : List PriceRule)
    (h : r.Matches model params → r.identity ∈ seen ∨ ∃ s ∈ before, s.identity = r.identity) :
    applied model params seen (before ++ r :: after) =
      applied model params seen (before ++ after) := by
  induction before generalizing seen with
  | nil =>
    have hbarred : ¬(r.Matches model params ∧ r.identity ∉ seen) := by
      rintro ⟨hmatches, hseen⟩
      rcases h hmatches with hmem | ⟨s, hs, -⟩
      · exact hseen hmem
      · cases hs
    rw [List.nil_append, applied_cons, if_neg hbarred, List.nil_append]
  | cons b before ih =>
    rw [List.cons_append, List.cons_append, applied_cons, applied_cons]
    by_cases hb : b.Matches model params ∧ b.identity ∉ seen
    · rw [if_pos hb, if_pos hb, ih]
      intro hmatches
      rcases h hmatches with hmem | ⟨s, hs, hid⟩
      · exact .inl (List.mem_cons_of_mem _ hmem)
      · rcases List.mem_cons.mp hs with rfl | hs
        · exact .inl (hid ▸ List.mem_cons_self)
        · exact .inr ⟨s, hs, hid⟩
    · rw [if_neg hb, if_neg hb, ih]
      intro hmatches
      rcases h hmatches with hmem | ⟨s, hs, hid⟩
      · exact .inl hmem
      · rcases List.mem_cons.mp hs with rfl | hs
        · -- It matches as `r` does, so its identity was seen before.
          by_contra hne
          exact hb ⟨hmatches.of_identity hid.symm, fun hmem => hne (.inl (hid ▸ hmem))⟩
        · exact .inr ⟨s, hs, hid⟩

theorem counted_insert (before after : List PriceRule)
    (h : r.Matches model params → ∃ s ∈ before, s.identity = r.identity) :
    counted (before ++ r :: after) model params = counted (before ++ after) model params := by
  rw [← applied_eq_counted, ← applied_eq_counted]
  exact applied_insert before after fun hmatches => .inr (h hmatches)

theorem mem_of_mem_counted (h : r ∈ counted rules model params) :
    r ∈ rules ∧ r.Matches model params := by
  obtain ⟨i, hi, rfl⟩ := List.mem_map.mp h
  have hcounts : Counts rules model params i := of_decide_eq_true (List.mem_filter.mp hi).2
  exact ⟨List.get_mem rules i, hcounts.1⟩

theorem counted_nodup : ((counted rules model params).map PriceRule.identity).Nodup := by
  induction rules with
  | nil => exact List.nodup_nil
  | cons r rules ih =>
    rw [counted_cons]
    split
    · rw [List.map_cons, List.nodup_cons]
      constructor
      · intro hmem
        obtain ⟨s, hs, hid⟩ := List.mem_map.mp hmem
        have hne : r.identity ≠ s.identity := by simpa using (List.mem_filter.mp hs).2
        exact hne hid.symm
      · exact ih.sublist (List.filter_sublist.map _)
    · exact ih

theorem mem_identities_iff {id : String × String × String} :
    id ∈ (counted rules model params).map PriceRule.identity ↔
      ∃ r ∈ rules, r.Matches model params ∧ r.identity = id := by
  constructor
  · intro h
    obtain ⟨r, hr, hid⟩ := List.mem_map.mp h
    obtain ⟨hmem, hmatches⟩ := mem_of_mem_counted hr
    exact ⟨r, hmem, hmatches, hid⟩
  · rintro ⟨r, hr, hmatches, rfl⟩
    induction rules with
    | nil => cases hr
    | cons s rules ih =>
      rw [counted_cons]
      rcases List.mem_cons.mp hr with rfl | hr
      · rw [if_pos hmatches]
        exact List.mem_cons_self
      · split
        · by_cases hid : s.identity = r.identity
          · rw [List.map_cons, hid]
            exact List.mem_cons_self
          · obtain ⟨t, ht, htid⟩ := List.mem_map.mp (ih hr)
            have hkept : t ∈ (counted rules model params).filter fun t => s.identity ≠ t.identity :=
              List.mem_filter.mpr ⟨ht, by simpa [htid] using hid⟩
            exact List.mem_cons_of_mem _ (htid ▸ List.mem_map_of_mem hkept)
        · exact ih hr

/-- Which identities count is the same in every order. -/
theorem identities_perm (h : rules.Perm rules') :
    ((counted rules model params).map PriceRule.identity).Perm
      ((counted rules' model params).map PriceRule.identity) := by
  rw [List.perm_ext_iff_of_nodup counted_nodup counted_nodup]
  intro id
  rw [mem_identities_iff, mem_identities_iff]
  simp only [h.mem_iff]

/-- Rules of one identity that match have the same ratio. -/
def Unambiguous (rules : List PriceRule) (model : String) (params : Json.Members) : Prop :=
  ∀ r ∈ rules, ∀ s ∈ rules, r.Matches model params → s.identity = r.identity → s.ratio = r.ratio

instance : Decidable (Unambiguous rules model params) :=
  inferInstanceAs (Decidable (∀ r ∈ rules, ∀ s ∈ rules, _ → _ → _))

theorem Unambiguous.mem_counted_iff (h : Unambiguous rules model params) :
    r ∈ counted rules model params ↔ r ∈ rules ∧ r.Matches model params := by
  constructor
  · exact mem_of_mem_counted
  · rintro ⟨hr, hmatches⟩
    obtain ⟨s, hs, hid⟩ := List.mem_map.mp (mem_identities_iff.mpr ⟨r, hr, hmatches, rfl⟩)
    have hratio := h r hr s (mem_of_mem_counted hs).1 hmatches hid
    rwa [← PriceRule.eq_of_identity hid hratio]

theorem Unambiguous.perm (h : Unambiguous rules model params) (hperm : rules.Perm rules') :
    Unambiguous rules' model params := by
  intro r hr s hs
  exact h r (hperm.mem_iff.mpr hr) s (hperm.mem_iff.mpr hs)

theorem Unambiguous.counted_perm (h : Unambiguous rules model params)
    (hperm : rules.Perm rules') :
    (counted rules model params).Perm (counted rules' model params) := by
  rw [List.perm_ext_iff_of_nodup counted_nodup.of_map counted_nodup.of_map]
  intro r
  rw [h.mem_counted_iff, (h.perm hperm).mem_counted_iff, hperm.mem_iff]

/-- Of two rules of one identity, the first is the one that counts. -/
theorem counted_cons_cons (rest : List PriceRule) (hmatches : r.Matches model params)
    (hid : s.identity = r.identity) :
    counted (r :: s :: rest) model params =
      r :: (counted rest model params).filter fun t => r.identity ≠ t.identity := by
  have hbarred : counted ([r] ++ s :: rest) model params = counted ([r] ++ rest) model params :=
    counted_insert [r] rest fun _ => ⟨r, List.mem_cons_self, hid.symm⟩
  rw [List.singleton_append, List.singleton_append] at hbarred
  rw [hbarred, counted_cons, if_pos hmatches]

/-- Where the order does not show in the factors, rules of one identity have the same
ratio. -/
theorem unambiguous_of_perm
    (h : ∀ rules', rules.Perm rules' → ((counted rules' model params).map (·.ratio)).Perm
      ((counted rules model params).map (·.ratio))) : Unambiguous rules model params := by
  intro r hr s hs hmatches hid
  by_cases heq : s = r
  · rw [heq]
  -- In front of all others, each of the two counts in one order and not in the other.
  have hmem : s ∈ rules.erase r := (List.mem_erase_of_ne heq).mpr hs
  have hfirst : rules.Perm (r :: s :: (rules.erase r).erase s) :=
    (List.perm_cons_erase hr).trans ((List.perm_cons_erase hmem).cons r)
  have hsecond : rules.Perm (s :: r :: (rules.erase r).erase s) := hfirst.trans (.swap s r _)
  have hsame := (h _ hsecond).trans (h _ hfirst).symm
  rw [counted_cons_cons _ hmatches hid,
    counted_cons_cons _ (hmatches.of_identity hid.symm) hid.symm, hid, List.map_cons,
    List.map_cons, ← Multiset.coe_eq_coe, ← Multiset.cons_coe, ← Multiset.cons_coe,
    Multiset.cons_inj_left] at hsame
  exact hsame

end Counting

variable (p : PriceRules) (model : String) (params : Json.Members)

/-- The ratios that a price is the product of, in their order. -/
def factors : List Binary64 :=
  if p.enabled then (counted p.rules model params).map (·.ratio) else []

theorem ratio_eq_foldl :
    p.ratio model params =
      if p.enabled then ((counted p.rules model params).map (·.ratio)).foldl Binary64.mul .one
      else .one := by
  rw [ratio, applied_eq_counted, List.foldl_map]

theorem ratio_eq_foldl_factors :
    p.ratio model params = (p.factors model params).foldl Binary64.mul .one := by
  rw [ratio_eq_foldl, factors]
  split
  · rfl
  · exact List.foldl_nil.symm

/-- The price is one when the rules are switched off. Otherwise it is the product of
the ratios of the rules that count, in the order of the rules and starting from one.
So a rule that does not match, and one after a rule of the same identity, may stand
anywhere without a change of the price. -/
theorem ratio_eq_product :
    (p.ratio model params =
      if p.enabled then ((counted p.rules model params).map (·.ratio)).foldl Binary64.mul .one
      else .one) ∧
    ∀ before after r, p.rules = before ++ after →
      (¬r.Matches model params ∨ ∃ s ∈ before, s.identity = r.identity) →
      ({ p with rules := before ++ r :: after } : PriceRules).ratio model params =
        p.ratio model params := by
  constructor
  · exact p.ratio_eq_foldl model params
  · intro before after r hrules hbarred
    have hcounted : counted (before ++ r :: after) model params =
        counted p.rules model params := by
      rw [hrules]
      exact counted_insert before after fun hmatches => hbarred.resolve_left (not_not_intro hmatches)
    rw [ratio_eq_foldl, ratio_eq_foldl, hcounted]

/-- A second rule for the same resolution, at another ratio. -/
theorem starter_copy_ratio :
    let copy : PriceRule := ⟨"doubao-*", "resolution", "720p", .ofNat 5⟩
    let params := [("resolution", Json.str "720p")]
    copy.Matches "doubao-x" params ∧
      ({ starter with rules := starter.rules ++ [copy] } : PriceRules).ratio "doubao-x" params =
        .ofQuotient false 8 10 := by
  intro copy params
  have hkept := (ratio_eq_product starter "doubao-x" params).2 starter.rules [] copy
    (List.append_nil _).symm (.inr (by decide +kernel))
  have hprice : starter.ratio "doubao-x" params = .ofQuotient false 8 10 := by decide +kernel
  exact ⟨by decide +kernel, hkept.trans hprice⟩

/-- The factors of a price are the same in every order of the rules exactly when
matching rules of one identity have the same ratio. Which identities they belong to is
the same in every order anyway. -/
theorem order_irrelevant_iff :
    p.ratio model params = (p.factors model params).foldl Binary64.mul .one ∧
    (∀ rules', p.rules.Perm rules' → ((counted p.rules model params).map PriceRule.identity).Perm
      ((counted rules' model params).map PriceRule.identity)) ∧
    ((∀ rules', p.rules.Perm rules' →
        (({ p with rules := rules' } : PriceRules).factors model params).Perm
          (p.factors model params)) ↔
      (p.enabled = true → Unambiguous p.rules model params)) := by
  refine ⟨p.ratio_eq_foldl_factors model params, ?_, ?_, ?_⟩
  · intro rules' hperm
    exact identities_perm hperm
  · intro h henabled
    simp only [factors, henabled, if_true] at h
    exact unambiguous_of_perm h
  · intro h rules' hperm
    unfold factors
    dsimp only
    split
    · next henabled => exact ((h henabled).counted_perm hperm).symm.map _
    · exact .nil

/-- The rules to start with, from the last one to the first. -/
theorem starter_reversed_factors :
    let params := [("duration", Json.nat 10), ("resolution", Json.str "720p")]
    (starter.factors "doubao-x" params).length = 2 ∧
      (({ starter with rules := starter.rules.reverse } : PriceRules).factors "doubao-x"
        params).Perm (starter.factors "doubao-x" params) := by
  intro params
  have hone : Unambiguous starter.rules "doubao-x" params := by decide +kernel
  exact ⟨by decide +kernel, (order_irrelevant_iff starter "doubao-x" params).2.2.mpr
    (fun _ => hone) _ (List.reverse_perm _).symm⟩

/-- Two rules of one identity with different ratios, in either order. -/
theorem conflicting_rules_order_shows :
    let twice : PriceRule := ⟨"m", "k", "v", .ofNat 2⟩
    let thrice : PriceRule := ⟨"m", "k", "v", .ofNat 3⟩
    let params := [("k", Json.str "v")]
    [twice, thrice].Perm [thrice, twice] ∧
      factors ⟨[twice, thrice], true⟩ "m" params = [.ofNat 2] ∧
      factors ⟨[thrice, twice], true⟩ "m" params = [.ofNat 3] ∧
      ¬(factors ⟨[twice, thrice], true⟩ "m" params).Perm
        (factors ⟨[thrice, twice], true⟩ "m" params) := by
  intro twice thrice params
  exact ⟨.swap _ _ _, by decide +kernel, by decide +kernel, by decide +kernel⟩

end PriceRules

end VideoGateway

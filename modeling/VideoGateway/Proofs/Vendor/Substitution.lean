import VideoGateway.Proofs.Generation.Fallback

/-!
# Metadata in the place of a field

The value of a field may be given in the metadata instead, under any key of its
parameter. It is read there as the same value, so the request asks for the same
and is prepared alike: for the same action and parameters, or refused with the
same error.
-/
namespace VideoGateway

namespace Request

variable {r s : Request} {keys : List String}

theorem hasFrameImage_eq (r : Request) : r.hasFrameImage =
    ((Parameter.firstFrame.asked? r).isSome || (Parameter.lastFrame.asked? r).isSome) := by
  apply Bool.eq_iff_iff.mpr
  simp only [hasFrameImage, frameKeys, List.any_cons, List.any_nil, given_eq_isSome,
    bind_nonBlank?_metadata, Parameter.asked?, Parameter.stated?, Parameter.keys, Parameter.read,
    Parameter.findSome?_pair, Option.orElse_eq_orElse, Option.orElse_eq_or, Option.isSome_or,
    Bool.or_eq_true, Bool.false_eq_true, or_false]
  tauto

theorem SameFor.action (h : SameFor keys r s) : r.action = s.action := by
  rw [Request.action, hasFrameImage_eq, h.asked, h.asked, hasReferenceImages, h.images,
    ← hasReferenceImages, ← hasFrameImage_eq, ← Request.action]

theorem SameFor.validate (h : SameFor keys r s) : r.validate = s.validate := by
  rw [Request.validate, h.model, h.action, promptText?, h.prompt, ← promptText?,
    ← Request.validate]

end Request

theorem Vendor.prepare_congr {v : Vendor} {r s : Request}
    (h : r.SameFor (v.capabilities.descriptor s.model).passthroughKeys s) :
    v.prepare r = v.prepare s := by
  have hnormalize : v.normalize r = v.normalize s := by
    rw [normalize, h.model, h.normalize, ← normalize]
  rw [prepare, h.validate, hnormalize, ← prepare]

namespace Parameter

/-- The value of a parameter's own field, in JSON. -/
def field? : Parameter → Request → Option Json
  | .duration, r => r.duration.map .int
  | .resolution, r => r.resolution.map .str
  | .ratio, r => r.aspectRatio.map .str
  | .seed, r => r.seed.map .int
  | .firstFrame, r => r.firstFrame.map .str
  | .lastFrame, r => r.lastFrame.map .str
  | .generateAudio, r => r.generateAudio.map .bool
  | .cfgScale, r => r.cfgScale.map .real
  | .fps, r => r.fps.map .int

/-- The request without the parameter's own field. -/
def clear : Parameter → Request → Request
  | .duration, r => { r with duration := none }
  | .resolution, r => { r with resolution := none }
  | .ratio, r => { r with aspectRatio := none }
  | .seed, r => { r with seed := none }
  | .firstFrame, r => { r with firstFrame := none }
  | .lastFrame, r => { r with lastFrame := none }
  | .generateAudio, r => { r with generateAudio := none }
  | .cfgScale, r => { r with cfgScale := none }
  | .fps, r => { r with fps := none }

/-- The request with a value in the metadata instead of the parameter's own field. -/
def move (p : Parameter) (key : String) (value : Json) (r : Request) : Request :=
  { p.clear r with metadata := r.metadata.insert key value }

end Parameter

/-- The integers of the request are signed ones of 64 bits. -/
structure Request.Signed (r : Request) : Prop where
  duration : ∀ n ∈ r.duration, Word.leastSigned64 ≤ n ∧ n ≤ Word.greatestSigned64
  seed : ∀ n ∈ r.seed, Word.leastSigned64 ≤ n ∧ n ≤ Word.greatestSigned64
  fps : ∀ n ∈ r.fps, Word.leastSigned64 ≤ n ∧ n ≤ Word.greatestSigned64

section Reading

open Document (Slot Record Reading Fault)

theorem Document.Reading.signed64_bounds {d : Document} {n : Int} (h : Reading.signed64 d = .ok n) :
    Word.leastSigned64 ≤ n ∧ n ≤ Word.greatestSigned64 := by
  unfold Reading.signed64 Reading.integer at h
  split at h
  · split at h
    · next hbounds => exact Except.ok.inj h ▸ hbounds
    · cases h
  · cases h

theorem Document.Record.get_signed64_bounds {record : Record} {names : List String} {value : Option Int}
    (h : record.get (.optional names .signed64) = .ok value) :
    ∀ n ∈ value, Word.leastSigned64 ≤ n ∧ n ≤ Word.greatestSigned64 := by
  rintro n rfl
  unfold Record.get at h
  split at h
  · next d _ =>
    change Reading.option Reading.signed64 d = .ok (some n) at h
    unfold Reading.option at h
    split at h
    · cases h
    · obtain ⟨m, hm, hmn⟩ := map_eq_ok_iff.mp h
      cases hmn
      exact Reading.signed64_bounds hm
  · cases h

/-- Every request that is read has such integers. -/
theorem Request.signed_of_read {d : Document} {r : Request} (h : Request.read d = .ok r) :
    r.Signed := by
  unfold Request.read at h
  obtain ⟨record, -, h⟩ := bind_eq_ok_iff.mp h
  obtain ⟨model, -, h⟩ := bind_eq_ok_iff.mp h
  obtain ⟨prompt, -, h⟩ := bind_eq_ok_iff.mp h
  obtain ⟨duration, hduration, h⟩ := bind_eq_ok_iff.mp h
  obtain ⟨resolution, -, h⟩ := bind_eq_ok_iff.mp h
  obtain ⟨size, -, h⟩ := bind_eq_ok_iff.mp h
  obtain ⟨aspectRatio, -, h⟩ := bind_eq_ok_iff.mp h
  obtain ⟨seed, hseed, h⟩ := bind_eq_ok_iff.mp h
  obtain ⟨firstFrame, -, h⟩ := bind_eq_ok_iff.mp h
  obtain ⟨lastFrame, -, h⟩ := bind_eq_ok_iff.mp h
  obtain ⟨images, -, h⟩ := bind_eq_ok_iff.mp h
  obtain ⟨generateAudio, -, h⟩ := bind_eq_ok_iff.mp h
  obtain ⟨cfgScale, -, h⟩ := bind_eq_ok_iff.mp h
  obtain ⟨fps, hfps, h⟩ := bind_eq_ok_iff.mp h
  obtain ⟨metadata, -, h⟩ := bind_eq_ok_iff.mp h
  cases h
  exact ⟨Record.get_signed64_bounds hduration, Record.get_signed64_bounds hseed,
    Record.get_signed64_bounds hfps⟩

end Reading

namespace Parameter

variable {p q : Parameter} {r : Request} {key : String} {value : Json}

theorem int?_int {n : Int} (h : Word.leastSigned64 ≤ n ∧ n ≤ Word.greatestSigned64) :
    Metadata.int? (.int n) = some n :=
  if_pos h

theorem real?_real {x : Binary64} (h : x.isFinite = true) : Metadata.real? (.real x) = some x := by
  simp [Json.real, h, Metadata.real?, Json.Number.toBinary64]

/-- The value of a field is read in the metadata as what the field asks for. -/
theorem read_field (hr : r.Signed) (hset : p.field? r = some value)
    (hsize : p = .resolution ∨ p = .ratio → r.size = none)
    (hfinite : p = .cfgScale → ∀ x ∈ r.cfgScale, x.isFinite = true) :
    p.read value = p.stated? r := by
  cases p with
  | duration =>
    obtain ⟨n, hn, rfl⟩ := Option.map_eq_some_iff.mp hset
    exact (int?_int (hr.duration n hn)).trans hn.symm
  | resolution =>
    obtain ⟨s, hs, rfl⟩ := Option.map_eq_some_iff.mp hset
    simp [read, stated?, hs, hsize, Metadata.text?]
  | ratio =>
    obtain ⟨s, hs, rfl⟩ := Option.map_eq_some_iff.mp hset
    simp [read, stated?, hs, hsize, Metadata.text?]
  | seed =>
    obtain ⟨n, hn, rfl⟩ := Option.map_eq_some_iff.mp hset
    exact (int?_int (hr.seed n hn)).trans hn.symm
  | firstFrame =>
    obtain ⟨s, hs, rfl⟩ := Option.map_eq_some_iff.mp hset
    simp [read, stated?, hs, Metadata.text?]
  | lastFrame =>
    obtain ⟨s, hs, rfl⟩ := Option.map_eq_some_iff.mp hset
    simp [read, stated?, hs, Metadata.text?]
  | generateAudio =>
    obtain ⟨b, hb, rfl⟩ := Option.map_eq_some_iff.mp hset
    exact hb.symm
  | cfgScale =>
    obtain ⟨x, hx, rfl⟩ := Option.map_eq_some_iff.mp hset
    exact (real?_real (hfinite rfl x hx)).trans hx.symm
  | fps =>
    obtain ⟨n, hn, rfl⟩ := Option.map_eq_some_iff.mp hset
    exact (int?_int (hr.fps n hn)).trans hn.symm

theorem stated?_move_of_ne (h : q ≠ p) : q.stated? (p.move key value r) = q.stated? r := by
  cases p <;> cases q <;> simp_all [stated?, move, clear]

theorem stated?_move (hsize : p = .resolution ∨ p = .ratio → r.size = none) :
    p.stated? (p.move key value r) = none := by
  cases p <;> simp_all [stated?, move, clear]

theorem findSome?_of_others {α β : Type} {f : α → Option β} {a : α} {as : List α} (ha : a ∈ as)
    (hothers : ∀ b ∈ as, b ≠ a → f b = none) : as.findSome? f = f a := by
  induction as with
  | nil => cases ha
  | cons b as ih =>
    rw [List.findSome?_cons]
    by_cases hb : b = a
    · subst hb
      cases hvalue : f b with
      | some value => rfl
      | none =>
        refine List.findSome?_eq_none_iff.mpr fun c hc => ?_
        by_cases hcb : c = b
        · rw [hcb, hvalue]
        · exact hothers c (List.mem_cons_of_mem _ hc) hcb
    · rw [hothers b List.mem_cons_self hb]
      exact ih ((List.mem_cons.mp ha).resolve_left (Ne.symm hb))
        fun c hc => hothers c (List.mem_cons_of_mem _ hc)

variable {α : Type}

theorem fromMetadata?_move_self (p : Parameter) (key : String) (value : Json) (r : Request)
    (read : Json → Option α) :
    Effective.fromMetadata? (p.move key value r) key read = read value := by
  show ((r.metadata.insert key value).get? key).bind read = read value
  rw [Json.Members.get?_insert_self, Option.bind_some]

theorem fromMetadata?_move_of_ne {other : String} (h : other ≠ key) (read : Json → Option α) :
    Effective.fromMetadata? (p.move key value r) other read =
      Effective.fromMetadata? r other read := by
  show ((r.metadata.insert key value).get? other).bind read = (r.metadata.get? other).bind read
  rw [Json.Members.get?_insert_of_ne h]

theorem fromMetadata?_of_free {other : String} (h : r.metadata.get? other = none)
    (read : Json → Option α) : Effective.fromMetadata? r other read = none := by
  rw [Effective.fromMetadata?, h, Option.bind_none]

theorem asked?_move (hread : p.read value = p.stated? r) (hkey : key ∈ p.keys)
    (hfree : ∀ k ∈ p.keys, r.metadata.get? k = none)
    (hsize : p = .resolution ∨ p = .ratio → r.size = none) (q : Parameter) :
    q.asked? (p.move key value r) = q.asked? r := by
  by_cases hq : q = p
  · subst hq
    have hmoved : (q.keys.findSome? fun k =>
        Effective.fromMetadata? (q.move key value r) k q.read) = q.stated? r := by
      rw [findSome?_of_others hkey fun k hk hne => ?_, fromMetadata?_move_self, hread]
      rw [fromMetadata?_move_of_ne hne, fromMetadata?_of_free (hfree k hk)]
    have hunsaid : q.asked? r = q.stated? r :=
      asked?_of_unsaid fun k hk => fromMetadata?_of_free (hfree k hk) q.read
    rw [hunsaid, asked?, stated?_move hsize, hmoved]
    rfl
  · apply asked?_congr (stated?_move_of_ne hq)
    intro k hk
    apply fromMetadata?_move_of_ne
    rintro rfl
    exact notMem_keys hq k hk hkey

theorem sameFor_move {keys : List String} (hkeys : ∀ k ∈ keys, k ∉ p.keys)
    (hread : p.read value = p.stated? r) (hkey : key ∈ p.keys)
    (hfree : ∀ k ∈ p.keys, r.metadata.get? k = none)
    (hsize : p = .resolution ∨ p = .ratio → r.size = none) :
    Request.SameFor keys (p.move key value r) r where
  model := by cases p <;> rfl
  prompt := by cases p <;> rfl
  images := by cases p <;> rfl
  asked := asked?_move hread hkey hfree hsize
  forwarded := by
    intro k hk
    refine Json.Members.get?_insert_of_ne ?_ value r.metadata
    rintro rfl
    exact hkeys k hk hkey

end Parameter

/-- Metadata is an exact substitute for a field: with a value under any key of its
parameter instead of the field, where the metadata says nothing else about the
parameter and no size tells it, a request is prepared alike, for the same action and
parameters or with the same error. -/
theorem Vendor.prepare_move (v : Vendor) {r : Request} (hr : r.Signed) {p : Parameter} {key : String}
    {value : Json} (hset : p.field? r = some value) (hkey : key ∈ p.keys)
    (hfree : ∀ k ∈ p.keys, r.metadata.get? k = none)
    (hsize : p = .resolution ∨ p = .ratio → r.size = none)
    (hfinite : p = .cfgScale → ∀ x ∈ r.cfgScale, x.isFinite = true) :
    v.prepare (p.move key value r) = v.prepare r := by
  have hread : p.read value = p.stated? r := Parameter.read_field hr hset hsize hfinite
  refine prepare_congr (Parameter.sameFor_move (fun k hk hmem => ?_) hread hkey hfree hsize)
  -- A forwarded key stands in for no parameter.
  exact (v.capabilities_readsBack _ (v.capabilities.descriptor_mem r.model)).passthrough k hk
    (Parameter.mem_fieldKeys_iff.mpr ⟨p, hmem⟩)

/-- The only image of a request that has no prompt, given in the metadata. -/
theorem movedFrame_prepare :
    let framed := { Request.sample with
      model := "doubao-seedance-1-0-lite-i2v", prompt := none, firstFrame := some " http://koi" }
    let moved := { framed with
      firstFrame := none, metadata := [("first_frame", .str " http://koi")] }
    Vendor.doubao.prepare moved = Vendor.doubao.prepare framed ∧
      Vendor.doubao.prepare moved = .ok (.imageToVideo, Vendor.doubao.normalize framed) := by
  intro framed moved
  have hsigned : framed.Signed := by constructor <;> simp [framed, Request.sample]
  have hset : Parameter.firstFrame.field? framed = some (.str " http://koi") := rfl
  have hkey : "first_frame" ∈ Parameter.firstFrame.keys := by decide
  have hmove : Parameter.firstFrame.move "first_frame" (.str " http://koi") framed = moved := rfl
  have hmoved := Vendor.doubao.prepare_move hsigned hset hkey (fun _ _ => rfl) (fun _ => rfl)
    fun h => absurd h (by decide)
  rw [hmove] at hmoved
  have hprepared : Vendor.doubao.prepare framed = .ok (.imageToVideo, Vendor.doubao.normalize framed) :=
    Vendor.prepare_of_validate (show framed.validate = .ok .imageToVideo by decide +kernel)
      (by decide) (by decide +kernel)
  exact ⟨hmoved, hmoved.trans hprepared⟩

end VideoGateway

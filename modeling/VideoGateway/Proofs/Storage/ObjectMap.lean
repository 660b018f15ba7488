import VideoGateway.Gateway.Download
import VideoGateway.Proofs.Basic
import VideoGateway.Proofs.Gateway.Effects
import VideoGateway.Proofs.Storage.ObjectPath

/-!
# The bucket is one map

Seen through the errands of its clients, a bucket that refuses nothing is a map from keys to
contents, in which keys with the same parts stand for one object. An upload adds its object when
all of its pieces have come and make the announced size, and otherwise leaves the map as it was.
-/
namespace VideoGateway

/-- What a client has to do with a bucket. -/
inductive BucketErrand where
  | upload (key : String) (pieces : List Piece) (size : Option Nat) (mediaType : String)
  | remove (key : String)
  | contains (key : String)
  | measure (key : String)

/-- How an errand ends. -/
inductive BucketReply where
  | stored (link : Except StorageError String)
  | removed (result : Except StorageError Unit)
  | contained (result : Except StorageError Bool)
  | measured (size : Except StorageError Nat)

def BucketErrand.key : BucketErrand → String
  | .upload key _ _ _ => key
  | .remove key => key
  | .contains key => key
  | .measure key => key

namespace BucketLocation

def errand (l : BucketLocation) : BucketErrand → Program BucketReply
  | .upload key pieces size mediaType => .stored <$> (l.upload key pieces size mediaType).run
  | .remove key => .removed <$> (l.remove key).run
  | .contains key => .contained <$> (l.contains key).run
  | .measure key => .measured <$> (l.measure key).run

end BucketLocation

/-- Contents by the keys of their objects. -/
abbrev ObjectMap := String → Option Bytes

namespace ObjectMap

/-- The map with another object, or none, for all keys with the parts of `key`. -/
def set (m : ObjectMap) (key : String) (object : Option Bytes) : ObjectMap :=
  fun other => if ObjectPath.parts other = ObjectPath.parts key then object else m other

/-- What the map replies to an errand, and what it becomes. -/
inductive Answers (m : ObjectMap) : BucketErrand → BucketReply → ObjectMap → Prop
  | uploaded {key : String} {chunks : List Bytes} {size : Option Nat} {mediaType link : String} :
      (∀ n, size = some n → n = chunks.flatten.length) →
      Answers m (.upload key (chunks.map .ok) size mediaType) (.stored (.ok link))
        (m.set key (some chunks.flatten))
  /-- The pieces break off at some place. -/
  | interrupted {key : String} {chunks : List Bytes} {e : StorageError} {rest : List Piece}
      {size : Option Nat} {mediaType : String} :
      Answers m (.upload key (chunks.map .ok ++ .error e :: rest) size mediaType)
        (.stored (.error e)) m
  | incomplete {key : String} {chunks : List Bytes} {n : Nat} {mediaType : String} :
      n ≠ chunks.flatten.length →
      Answers m (.upload key (chunks.map .ok) (some n) mediaType)
        (.stored (.error (.incomplete n chunks.flatten.length))) m
  | removed {key : String} : Answers m (.remove key) (.removed (.ok ())) (m.set key none)
  | contained {key : String} : Answers m (.contains key) (.contained (.ok (m key).isSome)) m
  | measured {key : String} {content : Bytes} : m key = some content →
      Answers m (.measure key) (.measured (.ok content.length)) m
  | missing {key : String} : m key = none →
      Answers m (.measure key) (.measured (.error (.bucket .notFound))) m

/-- What the map replies to errands that are done one after the other. -/
inductive Run : ObjectMap → List BucketErrand → List BucketReply → ObjectMap → Prop
  | nil {m : ObjectMap} : Run m [] [] m
  | cons {m m' m'' : ObjectMap} {errand : BucketErrand} {errands : List BucketErrand}
      {reply : BucketReply} {replies : List BucketReply} : m.Answers errand reply m' →
      Run m' errands replies m'' → Run m (errand :: errands) (reply :: replies) m''

end ObjectMap

namespace Bucket

variable {b : Bucket} {path other : String} {content : Bytes}

theorem get?_cons (object : String × Bytes) (b : Bucket) (other : String) :
    get? (object :: b) other = if other = object.1 then some object.2 else b.get? other := by
  rw [get?, List.lookup_cons]
  by_cases h : other = object.1
  · rw [if_pos h, beq_iff_eq.mpr h]
  · rw [if_neg h, beq_eq_false_iff_ne.mpr h]
    rfl

theorem get?_erase (b : Bucket) (path other : String) :
    (b.erase path).get? other = if other = path then none else b.get? other := by
  induction b with
  | nil =>
    change none = if other = path then none else none
    rw [ite_self]
  | cons object b ih =>
    rw [erase] at ih ⊢
    by_cases hobject : object.1 = path
    · rw [List.filter_cons_of_neg (by simpa using hobject), ih, get?_cons, hobject]
      split
      · rfl
      · rfl
    · rw [List.filter_cons_of_pos (by simpa using hobject), get?_cons, ih, get?_cons]
      by_cases hother : other = object.1
      · rw [if_pos hother, if_pos hother, if_neg (hother ▸ hobject)]
      · rw [if_neg hother, if_neg hother]

theorem get?_put (b : Bucket) (path other : String) (content : Bytes) :
    (b.put path content).get? other = if other = path then some content else b.get? other := by
  rw [put, get?_cons, get?_erase]
  by_cases hother : other = path
  · rw [if_pos hother, if_pos hother]
  · rw [if_neg hother, if_neg hother, if_neg hother]

end Bucket

section Pieces

theorem pieces_cases (pieces : List Piece) : (∃ chunks : List Bytes, pieces = chunks.map .ok) ∨
    ∃ (chunks : List Bytes) (e : StorageError) (rest : List Piece),
      pieces = chunks.map .ok ++ .error e :: rest := by
  induction pieces with
  | nil => exact .inl ⟨[], rfl⟩
  | cons piece pieces ih =>
    cases piece with
    | error e => exact .inr ⟨[], e, pieces, rfl⟩
    | ok chunk =>
      rcases ih with ⟨chunks, rfl⟩ | ⟨chunks, e, rest, rfl⟩
      · exact .inl ⟨chunk :: chunks, rfl⟩
      · exact .inr ⟨chunk :: chunks, e, rest, rfl⟩

theorem joinPieces_ok (chunks : List Bytes) : joinPieces (chunks.map .ok) = .ok chunks.flatten := by
  induction chunks with
  | nil => rfl
  | cons chunk chunks ih =>
    obtain ⟨joined, hjoined, hflatten⟩ := map_eq_ok_iff.mp ih
    rw [List.flatten_cons, ← hflatten, joinPieces, List.map_cons, List.mapM_cons, hjoined]
    rfl

theorem joinPieces_error (chunks : List Bytes) (e : StorageError) (rest : List Piece) :
    joinPieces (chunks.map .ok ++ .error e :: rest) = .error e := by
  have hfirst : (List.mapM id (chunks.map .ok ++ .error e :: rest : List Piece)) = .error e := by
    induction chunks with
    | nil => rfl
    | cons chunk chunks ih =>
      rw [List.map_cons, List.cons_append, List.mapM_cons, ih]
      rfl
  rw [joinPieces, hfirst]
  rfl

end Pieces

variable {σ : Type} {env : Surroundings σ} {w : World σ} {l : BucketLocation}

/-- The bucket refuses nothing, as one in memory. -/
def Surroundings.Serves (env : Surroundings σ) : Prop :=
  ∀ op s, (env.refuses op s).1 = false

namespace Attempt

variable {α β ε : Type} {r : Except ε β} {b b' : Bucket}

/-- In a world the attempt ends with a result and leaves a bucket, and changes nothing else than
the state of the surroundings. -/
def Gives (env : Surroundings σ) (w : World σ) (a : Attempt ε α) (r : Except ε α) (b : Bucket) :
    Prop :=
  ∃ outside, a.run.run env w = (r, { w with bucket := b, outside := outside })

theorem Gives.bind {a : Attempt ε α} {f : α → Attempt ε β} {x : α} (ha : Gives env w a (.ok x) b)
    (hf : ∀ outside, Gives env { w with bucket := b, outside := outside } (f x) r b') :
    Gives env w (a >>= f) r b' := by
  obtain ⟨between, ha⟩ := ha
  obtain ⟨outside, hf⟩ := hf between
  exact ⟨outside, (run_bind_of_ok ha).trans hf⟩

theorem Gives.map {a : Attempt ε α} {r : Except ε α} (h : Gives env w a r b)
    (f : Except ε α → β) : ∃ outside,
      (f <$> a.run).run env w = (f r, { w with bucket := b, outside := outside }) := by
  obtain ⟨outside, h⟩ := h
  refine ⟨outside, ?_⟩
  rw [Program.run_map, h]

theorem gives_throw (e : ε) : Gives env w (throw e : Attempt ε α) (.error e) w.bucket :=
  ⟨w.outside, rfl⟩

theorem gives_pure (x : α) : Gives env w (pure x : Attempt ε α) (.ok x) w.bucket :=
  ⟨w.outside, rfl⟩

theorem Gives.lift {p : Program α} {x : α} (h : ∃ outside, p.run env w =
    (x, { w with bucket := b, outside := outside })) :
    Gives env w (ExceptT.lift p : Attempt ε α) (.ok x) b := by
  obtain ⟨outside, h⟩ := h
  refine ⟨outside, ?_⟩
  rw [run_lift, h]

variable (henv : env.Serves)
include henv

theorem perform_bucket (op : Bucket.Operation) (w : World σ) :
    ∃ outside, (Program.effect (.bucket op)).run env w = ((w.bucket.perform op).1,
      { w with bucket := (w.bucket.perform op).2, outside := outside }) := by
  have hserves := henv op w.outside
  cases hrefuses : env.refuses op w.outside with
  | mk refused outside =>
    obtain rfl : refused = false := by simpa [hrefuses] using hserves
    refine ⟨outside, ?_⟩
    rw [Program.effect, Program.run_perform, Program.run_done]
    simp only [Effect.perform, hrefuses]

theorem bucket_gives (op : Bucket.Operation) (w : World σ) :
    Gives env w (Attempt.bucket op) ((w.bucket.perform op).1.mapError .bucket)
      (w.bucket.perform op).2 := by
  obtain ⟨outside, h⟩ := perform_bucket henv op w
  refine ⟨outside, ?_⟩
  change Program.run env ((·.mapError StorageError.bucket) <$> Program.effect (.bucket op)) w = _
  rw [Program.run_map, h]

end Attempt

namespace BucketLocation

open Attempt (Gives bucket_gives perform_bucket gives_throw gives_pure)

section Uploads

variable (henv : env.Serves) (l : BucketLocation) (key mediaType : String) (chunks : List Bytes)
include henv

theorem upload_gives_link {size : Option Nat} (hsigning : l.signing = none)
    (hsize : ∀ n, size = some n → n = chunks.flatten.length) (w : World σ) :
    Gives env w (l.upload key (chunks.map .ok) size mediaType)
      (.ok (l.publicUrl (l.objectPath key))) (w.bucket.put (l.objectPath key) chunks.flatten) := by
  have hfits : size.filter (· != chunks.flatten.length) = none := by
    rw [Option.filter_eq_none_iff]
    intro n hn
    simpa using hsize n hn
  unfold upload
  rw [joinPieces_ok]
  dsimp only
  rw [hfits]
  apply (bucket_gives henv (.begin (l.objectPath key) mediaType) w).bind
  intro begun
  apply (bucket_gives henv (.finish (l.objectPath key) chunks.flatten) _).bind
  intro finished
  rw [link, hsigning]
  exact gives_pure _

theorem upload_gives_error (e : StorageError) (rest : List Piece) (size : Option Nat)
    (w : World σ) : Gives env w
      (l.upload key (chunks.map .ok ++ .error e :: rest) size mediaType) (.error e) w.bucket := by
  unfold upload
  rw [joinPieces_error]
  dsimp only
  apply (bucket_gives henv (.begin (l.objectPath key) mediaType) w).bind
  intro begun
  apply (Gives.lift (perform_bucket henv (.abandon (l.objectPath key)) _)).bind
  intro abandoned
  exact gives_throw e

theorem upload_gives_incomplete {n : Nat} (h : n ≠ chunks.flatten.length) (w : World σ) :
    Gives env w (l.upload key (chunks.map .ok) (some n) mediaType)
      (.error (.incomplete n chunks.flatten.length)) w.bucket := by
  have hdiffers : (some n).filter (· != chunks.flatten.length) = some n := by
    simpa using h
  unfold upload
  rw [joinPieces_ok]
  dsimp only
  rw [hdiffers]
  apply (bucket_gives henv (.begin (l.objectPath key) mediaType) w).bind
  intro begun
  apply (bucket_gives henv (.abandon (l.objectPath key)) _).bind
  intro abandoned
  exact gives_throw _

theorem remove_gives (w : World σ) :
    Gives env w (l.remove key) (.ok ()) (w.bucket.erase (l.objectPath key)) :=
  bucket_gives henv (.remove (l.objectPath key)) w

theorem measure_gives {content : Bytes} (w : World σ)
    (h : w.bucket.get? (l.objectPath key) = some content) :
    Gives env w (l.measure key) (.ok content.length) w.bucket := by
  have hgives := bucket_gives henv (.measure (l.objectPath key)) w
  simp only [Bucket.perform, h] at hgives
  exact hgives

theorem measure_gives_missing (w : World σ) (h : w.bucket.get? (l.objectPath key) = none) :
    Gives env w (l.measure key) (.error (.bucket .notFound)) w.bucket := by
  have hgives := bucket_gives henv (.measure (l.objectPath key)) w
  simp only [Bucket.perform, h] at hgives
  exact hgives

theorem contains_gives (w : World σ) :
    Gives env w (l.contains key) (.ok (w.bucket.get? (l.objectPath key)).isSome) w.bucket := by
  unfold contains
  cases h : w.bucket.get? (l.objectPath key) with
  | none =>
    apply (Gives.lift (measure_gives_missing henv l key w h)).bind
    intro measured
    exact gives_pure false
  | some content =>
    apply (Gives.lift (measure_gives henv l key w h)).bind
    intro measured
    exact gives_pure true

end Uploads

/-- The objects below the beginning of all keys. -/
def objects (l : BucketLocation) (b : Bucket) : ObjectMap :=
  fun key => b.get? (l.objectPath key)

section Map

variable {base : String} (hstart : l.keyStart = StorageConfig.keyPrefixOf base) {b : Bucket}
include hstart

theorem objectPath_eq_iff (key key' : String) :
    l.objectPath key = l.objectPath key' ↔ ObjectPath.parts key = ObjectPath.parts key' := by
  rw [objectPath, objectPath, hstart]
  exact ObjectPath.ofKey_keyPrefixOf_eq_iff

theorem objects_put (key : String) (content : Bytes) :
    l.objects (b.put (l.objectPath key) content) = (l.objects b).set key (some content) := by
  funext other
  simp only [objects, ObjectMap.set, Bucket.get?_put, l.objectPath_eq_iff hstart]

theorem objects_erase (key : String) :
    l.objects (b.erase (l.objectPath key)) = (l.objects b).set key none := by
  funext other
  simp only [objects, ObjectMap.set, Bucket.get?_erase, l.objectPath_eq_iff hstart]

end Map

section Errands

variable {base : String} (henv : env.Serves) (hstart : l.keyStart = StorageConfig.keyPrefixOf base)
  (hsigning : l.signing = none)
include henv hstart hsigning

/-- An errand ends as the map answers it, and only the object of its key may change. -/
theorem errand_answers (errand : BucketErrand) (w : World σ) : ∃ reply b outside,
    (l.errand errand).run env w = (reply, { w with bucket := b, outside := outside }) ∧
      (l.objects w.bucket).Answers errand reply (l.objects b) ∧
      ∀ path, path ≠ l.objectPath errand.key → b.get? path = w.bucket.get? path := by
  cases errand with
  | upload key pieces size mediaType =>
    rcases pieces_cases pieces with ⟨chunks, rfl⟩ | ⟨chunks, e, rest, rfl⟩
    · by_cases hsize : ∀ n, size = some n → n = chunks.flatten.length
      · obtain ⟨outside, hrun⟩ :=
          (upload_gives_link henv l key mediaType chunks hsigning hsize w).map BucketReply.stored
        refine ⟨_, _, outside, hrun, ?_, ?_⟩
        · rw [objects_put hstart]
          exact .uploaded hsize
        · intro path hpath
          rw [Bucket.get?_put]
          exact if_neg hpath
      · obtain ⟨n, hsome, hdiffers⟩ : ∃ n, size = some n ∧ n ≠ chunks.flatten.length := by
          simpa using hsize
        subst hsome
        obtain ⟨outside, hrun⟩ :=
          (upload_gives_incomplete henv l key mediaType chunks hdiffers w).map BucketReply.stored
        exact ⟨_, _, outside, hrun, .incomplete hdiffers, fun _ _ => rfl⟩
    · obtain ⟨outside, hrun⟩ :=
        (upload_gives_error henv l key mediaType chunks e rest size w).map BucketReply.stored
      exact ⟨_, _, outside, hrun, .interrupted, fun _ _ => rfl⟩
  | remove key =>
    obtain ⟨outside, hrun⟩ := (remove_gives henv l key w).map BucketReply.removed
    refine ⟨_, _, outside, hrun, ?_, ?_⟩
    · rw [objects_erase hstart]
      exact .removed
    · intro path hpath
      rw [Bucket.get?_erase]
      exact if_neg hpath
  | contains key =>
    obtain ⟨outside, hrun⟩ := (contains_gives henv l key w).map BucketReply.contained
    exact ⟨_, _, outside, hrun, .contained, fun _ _ => rfl⟩
  | measure key =>
    cases h : w.bucket.get? (l.objectPath key) with
    | none =>
      obtain ⟨outside, hrun⟩ := (measure_gives_missing henv l key w h).map BucketReply.measured
      exact ⟨_, _, outside, hrun, .missing h, fun _ _ => rfl⟩
    | some content =>
      obtain ⟨outside, hrun⟩ := (measure_gives henv l key w h).map BucketReply.measured
      exact ⟨_, _, outside, hrun, .measured h, fun _ _ => rfl⟩

theorem errands_answer (errands : List BucketErrand) (w : World σ) :
    (l.objects w.bucket).Run errands ((errands.mapM l.errand).run env w).1
        (l.objects ((errands.mapM l.errand).run env w).2.bucket) ∧
      ∀ path, (∀ key, path ≠ l.objectPath key) →
        ((errands.mapM l.errand).run env w).2.bucket.get? path = w.bucket.get? path := by
  induction errands generalizing w with
  | nil => exact ⟨.nil, fun _ _ => rfl⟩
  | cons errand errands ih =>
    obtain ⟨reply, b, outside, hrun, hanswers, hkept⟩ := errand_answers henv hstart hsigning errand w
    obtain ⟨hrest, hkeptRest⟩ := ih { w with bucket := b, outside := outside }
    rw [List.mapM_cons, Program.run_bind, hrun, Program.run_bind, Program.pure_eq,
      Program.run_done]
    refine ⟨.cons hanswers hrest, ?_⟩
    intro path hpath
    exact (hkeptRest path hpath).trans (hkept path (hpath errand.key))

end Errands

theorem inMemory_keyStart (publicBase basePath : String) :
    (inMemory publicBase basePath).keyStart = StorageConfig.keyPrefixOf basePath := by
  rw [inMemory]

/-- Whatever errands are done at a bucket in memory, it ends each of them as one map from keys to
contents does, and holds what this map becomes. Keys name the same object exactly when they have
the same parts; all their objects are below the base path, and others are left alone. -/
theorem inMemory_is_map (henv : env.Serves) (publicBase basePath : String)
    (errands : List BucketErrand) (w : World σ) :
    let l := inMemory publicBase basePath
    let after := (errands.mapM l.errand).run env w
    (l.objects w.bucket).Run errands after.1 (l.objects after.2.bucket) ∧
      (∀ key key', l.objectPath key = l.objectPath key' ↔
        ObjectPath.parts key = ObjectPath.parts key') ∧
      (∀ key, ObjectPath.Below basePath (l.objectPath key)) ∧
      ∀ path, ¬ ObjectPath.Below basePath path →
        after.2.bucket.get? path = w.bucket.get? path := by
  intro l
  have hstart : l.keyStart = StorageConfig.keyPrefixOf basePath :=
    inMemory_keyStart publicBase basePath
  have hsigning : l.signing = none := rfl
  have hbelow : ∀ key, ObjectPath.Below basePath (l.objectPath key) := by
    intro key
    rw [objectPath, hstart]
    exact ObjectPath.ofKey_below basePath key
  clear_value l
  obtain ⟨hrun, hkept⟩ := errands_answer henv hstart hsigning errands w
  dsimp only
  refine ⟨hrun, objectPath_eq_iff hstart, hbelow, ?_⟩
  intro path hpath
  apply hkept path
  rintro key rfl
  exact hpath (hbelow key)

def bucketSurroundings : Surroundings Unit where
  reply _ _ := (.error .disconnected, ())
  refuses _ _ := (false, ())

/-- An object is stored in two pieces; under another spelling of its key, one upload breaks off
and one is too short. -/
def sampleErrands : List BucketErrand :=
  [.upload "a//b" [.ok [1], .ok [2]] (some 2) "video/mp4",
    .upload "/a/b" [.ok [3], .error (.bucket .refused)] none "video/mp4",
    .upload "a/b/" [.ok [4]] (some 2) "video/mp4",
    .measure "a/b"]

/-- The object that was stored is still there, and nothing else. -/
theorem sampleErrands_run :
    let l := inMemory "http://cdn.test" "videos/"
    let w := World.fresh .starter ()
    let after := (sampleErrands.mapM l.errand).run bucketSurroundings w
    bucketSurroundings.Serves ∧
      (l.objects w.bucket).Run sampleErrands after.1 (l.objects after.2.bucket) ∧
      after.2.bucket = [("videos/a/b", [1, 2])] := by
  have hserves : bucketSurroundings.Serves := fun _ _ => rfl
  have hmap := inMemory_is_map hserves "http://cdn.test" "videos/" sampleErrands
    (World.fresh .starter ())
  dsimp only at hmap ⊢
  refine ⟨hserves, hmap.1, ?_⟩
  decide +kernel

end BucketLocation

end VideoGateway

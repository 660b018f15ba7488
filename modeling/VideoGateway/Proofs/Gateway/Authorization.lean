import VideoGateway.Proofs.Gateway.Requests
import VideoGateway.Proofs.Gateway.Submission
import VideoGateway.Proofs.Text.Cut
import VideoGateway.Proofs.Text.Utf8

/-!
# What a request may do without a key

A gateway with keys does nothing for a request that shows none of them: the answer is
made before the body is looked at, and no effect is performed for it. A request that
shows a key is answered as if the gateway were open.
-/
namespace VideoGateway

namespace Http.HeaderValue

variable {v : Bytes} {s : String}

theorem encodeChar_of_isPrintable {b : UInt8} (h : isPrintable b = true) :
    String.utf8EncodeChar (Char.ofNat b.toNat) = [b] := by
  have hascii : b.toNat < 0x80 := by
    simp only [isPrintable, Bool.or_eq_true, Bool.and_eq_true, decide_eq_true_eq, beq_iff_eq,
      UInt8.le_iff_toNat_le, UInt8.lt_iff_toNat_lt, UInt8.reduceToNat] at h
    rcases h with h | rfl
    · omega
    · decide
  exact Text.Utf8.encodeChar_ofNat hascii

theorem toText?_eq_some_iff :
    toText? v = some s ↔ v.all isPrintable = true ∧ v = Text.Utf8.encode s := by
  have hcome (h : v.all isPrintable = true) :
      Text.Utf8.encode (String.ofList (v.map fun b => Char.ofNat b.toNat)) = v := by
    rw [Text.Utf8.encode, String.toList_ofList, List.flatMap_map]
    conv_rhs => rw [← List.flatMap_singleton' v]
    exact List.flatMap_congr fun b hb => encodeChar_of_isPrintable (List.all_eq_true.mp h b hb)
  unfold toText?
  split
  · next h =>
    rw [Option.some.injEq]
    constructor
    · rintro rfl
      exact ⟨h, (hcome h).symm⟩
    · rintro ⟨-, hs⟩
      apply Text.Utf8.encode_injective
      rw [hcome h, hs]
  · next h =>
    constructor
    · intro hnone
      cases hnone
    · rintro ⟨hall, -⟩
      exact absurd hall h

end Http.HeaderValue

namespace Access

variable {keys : List String} {headers : Http.Headers}

/-- The first authorization header is a bearer token, and this is one of the keys, not
blank and printable. -/
def Shows (keys : List String) (headers : Http.Headers) : Prop :=
  ∃ key ∈ keys, Text.isBlankText key = false ∧
    (Text.Utf8.encode key).all Http.HeaderValue.isPrintable = true ∧
    headers.get? "authorization" = some (Text.Utf8.encode ("Bearer " ++ key))

theorem bearerToken_eq_ok_iff {token : String} :
    bearerToken headers = .ok token ↔ Text.isBlankText token = false ∧
      (Text.Utf8.encode token).all Http.HeaderValue.isPrintable = true ∧
      headers.get? "authorization" = some (Text.Utf8.encode ("Bearer " ++ token)) := by
  have hscheme : (Text.Utf8.encode "Bearer ").all Http.HeaderValue.isPrintable = true := by
    decide
  have hprintable (token : String) :
      (Text.Utf8.encode ("Bearer " ++ token)).all Http.HeaderValue.isPrintable =
        (Text.Utf8.encode token).all Http.HeaderValue.isPrintable := by
    rw [Text.Utf8.encode_append, List.all_append, hscheme, Bool.true_and]
  unfold bearerToken
  constructor
  · intro h
    split at h
    · cases h
    next value hvalue =>
    split at h
    · cases h
    next text htext =>
    split at h
    · cases h
    next rest hrest =>
    obtain ⟨hall, rfl⟩ := Http.HeaderValue.toText?_eq_some_iff.mp htext
    obtain rfl := Text.stripStart?_eq_some_iff.mp hrest
    split at h
    · cases h
    next hblank =>
    obtain rfl : rest = token := Except.ok.inj h
    exact ⟨by simpa using hblank, (hprintable rest).symm.trans hall, hvalue⟩
  · rintro ⟨hblank, hall, hvalue⟩
    have htext := Http.HeaderValue.toText?_eq_some_iff.mpr ⟨(hprintable token).trans hall, rfl⟩
    have hrest := Text.stripStart?_eq_some_iff.mpr (rfl : "Bearer " ++ token = "Bearer " ++ token)
    simp only [hvalue, htext, hrest, hblank, Bool.false_eq_true, ↓reduceIte]

theorem bearerToken_error {e : GatewayError} (h : bearerToken headers = .error e) :
    ∃ message, e = .unauthorized message := by
  unfold bearerToken at h
  repeat' split at h
  all_goals
    cases h
    try exact ⟨_, rfl⟩

theorem authorize_eq_ok_iff (hkeys : keys ≠ []) :
    authorize keys headers = .ok () ↔ Shows keys headers := by
  have hsome : keys.isEmpty = false := by simpa using hkeys
  unfold authorize checkToken
  simp only [hsome, Bool.false_eq_true, ↓reduceIte, Bool.false_or]
  constructor
  · intro h
    cases htoken : bearerToken headers with
    | error e =>
      rw [htoken] at h
      cases h
    | ok token =>
      rw [htoken] at h
      dsimp only at h
      split at h
      · next hmem => exact ⟨token, List.contains_iff_mem.mp hmem, bearerToken_eq_ok_iff.mp htoken⟩
      · cases h
  · rintro ⟨key, hmem, hshown⟩
    rw [bearerToken_eq_ok_iff.mpr hshown]
    simp [hmem]

theorem authorize_error {e : GatewayError} (h : authorize keys headers = .error e) :
    ∃ message, e = .unauthorized message := by
  unfold authorize at h
  split at h
  · cases h
  · cases htoken : bearerToken headers with
    | error e' =>
      rw [htoken] at h
      cases h
      exact bearerToken_error htoken
    | ok token =>
      rw [htoken] at h
      dsimp only [checkToken] at h
      split at h
      · cases h
      · cases h
        exact ⟨_, rfl⟩

/-- The response to a request that shows no key. -/
def refusal (message : String) : Http.Response :=
  .ofJson .unauthorized (.object [("error", .object [
    ("message", .str message),
    ("type", .str "authentication_error"),
    ("param", .null),
    ("code", .null)])])

end Access

namespace Gateway

/-- A request to one of the services that want a key: to submit, to show a task, to list
the models, and to show or to replace the price rules. -/
inductive Guarded (r : Http.Request) : Prop
  | submit : r.method = .post → Route.ofTarget? r.target = some .submissions → Guarded r
  | putRules : r.method = .put → Route.ofTarget? r.target = some .priceRules → Guarded r
  | task {id : String} : r.method = .get ∨ r.method = .head →
      Route.ofTarget? r.target = some (.task (some id)) → Guarded r
  | models : r.method = .get ∨ r.method = .head →
      Route.ofTarget? r.target = some .models → Guarded r
  | getRules : r.method = .get ∨ r.method = .head →
      Route.ofTarget? r.target = some .priceRules → Guarded r

/-- The response to a method, which has no body if nothing but its head is asked for. -/
def shownTo (m : Http.Method) (r : Http.Response) : Http.Response :=
  if m = .head then withoutBody r else r

section Reading

variable {r : Http.Request} {route : Route}

theorem handle_of_route (hroute : Route.ofTarget? r.target = some route)
    (hmethod : r.method ≠ .options) (g : Gateway) (cancelled : Bool) (now : Instant) :
    g.handle r cancelled now = forEveryOrigin <$> g.answer route r cancelled now := by
  unfold handle
  rw [hroute]
  cases hm : r.method with
  | options => exact absurd hm hmethod
  | _ => rfl

theorem handle_reading (hroute : Route.ofTarget? r.target = some route)
    (hmethod : r.method = .get ∨ r.method = .head) (hreads : route ≠ .submissions) (g : Gateway)
    (cancelled : Bool) (now : Instant) :
    g.handle r cancelled now = (fun response => forEveryOrigin (shownTo r.method response)) <$>
      answer.answerGet g route r route := by
  rw [handle_of_route hroute (by rintro hm; rw [hm] at hmethod; simp at hmethod)]
  unfold answer
  rcases hmethod with hm | hm
  · rw [hm]
    cases route with
    | submissions => exact absurd rfl hreads
    | _ => rfl
  · rw [hm]
    cases route with
    | submissions => exact absurd rfl hreads
    | _ => exact Functor.map_map withoutBody forEveryOrigin _

end Reading

/-- The gateway without keys, which is open to everyone. -/
def unlocked (g : Gateway) : Gateway :=
  { g with keys := [] }

/-- A service that looks at the key first, and does the rest as it does without keys. -/
theorem handle_of_service {r : Http.Request} {cancelled : Bool} {now : Instant}
    (service : Gateway → Attempt GatewayError Json)
    (hhandle : ∀ g, g.handle r cancelled now =
      (fun response => forEveryOrigin (shownTo r.method response)) <$> respond (service g))
    (hservice : ∀ g, service g =
      Attempt.ofExcept id (Access.authorize g.keys r.headers) >>= fun _ => service g.unlocked)
    (g : Gateway) : g.handle r cancelled now =
      match Access.authorize g.keys r.headers with
      | .error e => .done (forEveryOrigin (shownTo r.method e.response))
      | .ok _ => g.unlocked.handle r cancelled now := by
  rw [hhandle g, hhandle g.unlocked, hservice g]
  cases Access.authorize g.keys r.headers <;> rfl

/-- A guarded request is refused without any effect, or answered as by an open gateway. -/
theorem Guarded.handle {r : Http.Request} (h : Guarded r) (cancelled : Bool) (now : Instant)
    (g : Gateway) : g.handle r cancelled now =
      match Access.authorize g.keys r.headers with
      | .error e => .done (forEveryOrigin (shownTo r.method e.response))
      | .ok _ => g.unlocked.handle r cancelled now := by
  cases h with
  | submit hmethod htarget =>
    refine handle_of_service (·.handleSubmit r cancelled now) (fun g => ?_) (fun _ => rfl) g
    rw [handle_of_route htarget (by rw [hmethod]; nofun)]
    unfold answer
    rw [hmethod]
    rfl
  | putRules hmethod htarget =>
    refine handle_of_service (·.handlePutRules r) (fun g => ?_) (fun _ => rfl) g
    rw [handle_of_route htarget (by rw [hmethod]; nofun)]
    unfold answer
    rw [hmethod]
    rfl
  | @task id hmethod htarget =>
    exact handle_of_service (·.handleTask r id)
      (fun g => handle_reading htarget hmethod nofun g cancelled now) (fun _ => rfl) g
  | models hmethod htarget =>
    exact handle_of_service (·.handleModels r)
      (fun g => handle_reading htarget hmethod nofun g cancelled now) (fun _ => rfl) g
  | getRules hmethod htarget =>
    exact handle_of_service (·.handleGetRules r)
      (fun g => handle_reading htarget hmethod nofun g cancelled now) (fun _ => rfl) g

variable {σ : Type}

/-- Where a gateway has keys, a guarded request that shows none of them gets the refusal,
whatever is in it, and nothing happens. One that shows a key is answered as if there were
no keys. A request for a task whose name is not a text is not guarded: it gets the same
answer from every gateway, and nothing happens either. -/
theorem refused_or_unlocked {g : Gateway} (hkeys : g.keys ≠ []) (r : Http.Request)
    (cancelled : Bool) (now : Instant) (env : Surroundings σ) (w : World σ) :
    (Guarded r → ¬ Access.Shows g.keys r.headers → ∃ message,
      (g.handle r cancelled now).run env w =
        (forEveryOrigin (shownTo r.method (Access.refusal message)), w)) ∧
    (Guarded r → Access.Shows g.keys r.headers →
      g.handle r cancelled now = g.unlocked.handle r cancelled now) ∧
    (r.method = .get ∨ r.method = .head → Route.ofTarget? r.target = some (.task none) →
      (g.handle r cancelled now).run env w =
        (forEveryOrigin (shownTo r.method badNameResponse), w)) := by
  refine ⟨fun hguarded hshows => ?_, fun hguarded hshows => ?_, fun hmethod htarget => ?_⟩
  · rw [hguarded.handle]
    cases hauthorize : Access.authorize g.keys r.headers with
    | error e =>
      obtain ⟨message, rfl⟩ := Access.authorize_error hauthorize
      exact ⟨message, rfl⟩
    | ok _ => exact absurd ((Access.authorize_eq_ok_iff hkeys).mp hauthorize) hshows
  · rw [hguarded.handle, (Access.authorize_eq_ok_iff hkeys).mpr hshows]
  · rw [handle_reading htarget hmethod nofun]
    rfl

def lockedSample : Gateway :=
  { sample with keys := ["gw"] }

/-- A submission without a key whose body is no JSON at all. -/
def keylessSubmission : Http.Request :=
  ⟨.post, "/v1/video/generations", [], Text.Utf8.encode "no JSON"⟩

theorem keylessSubmission_guarded : Guarded keylessSubmission :=
  .submit rfl (by decide +kernel)

theorem keylessSubmission_refused : ∃ message,
    (lockedSample.handle keylessSubmission false ⟨0⟩).run sampleSurroundings
        (World.fresh .starter ()) =
      (forEveryOrigin (Access.refusal message), World.fresh .starter ()) := by
  obtain ⟨hrefused, -, -⟩ := refused_or_unlocked (g := lockedSample) (by simp [lockedSample])
    keylessSubmission false ⟨0⟩ sampleSurroundings (World.fresh .starter ())
  refine hrefused keylessSubmission_guarded ?_
  rintro ⟨key, -, -, -, hshown⟩
  cases hshown

/-- A request for a task whose name is not a text. -/
def illegibleRequest : Http.Request :=
  ⟨.get, "/v1/video/generations/%FF", [], []⟩

/-- A request for a task that shows no key gets no 401 where the name is not a text. -/
theorem illegibleRequest_not_unauthorized :
    Route.ofTarget? illegibleRequest.target = some (.task none) ∧
    ¬ Access.Shows lockedSample.keys illegibleRequest.headers ∧
    ((lockedSample.handle illegibleRequest false ⟨0⟩).run sampleSurroundings
      (World.fresh .starter ())).1.status = .badRequest := by
  refine ⟨by decide +kernel, ?_, by decide +kernel⟩
  rintro ⟨key, -, -, -, hshown⟩
  cases hshown

end Gateway

end VideoGateway

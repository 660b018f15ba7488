import VideoGateway.Proofs.Gateway.Confinement
import VideoGateway.Proofs.Gateway.KeyConfinement

/-!
# The stored copy of a video and the one that is passed on

A video is fetched on two ways: once for the copy in the bucket, when the task has
succeeded, and whenever a client wants its octets. Both go to the same address. Only the
second one carries the key of the channel where the vendor wants it, and only the first
one takes every success status for the video.
-/
namespace VideoGateway

variable {σ : Type} {env : Surroundings σ} {w w' : World σ}

theorem Storage.storeReply_begins_iff (s : Storage) (url taskId : String) (now : Instant)
    (reply : Http.Reply) :
    (∃ path mediaType next, (s.storeReply url taskId now reply).run =
      .perform (.bucket (.begin path mediaType)) next) ↔
    ∃ r, reply = .ok r ∧ r.status.isSuccess = true := by
  cases reply with
  | error failure =>
    refine ⟨?_, nofun⟩
    rintro ⟨_, _, _, h⟩
    cases h
  | ok r =>
    cases hstatus : r.status.isSuccess with
    | true =>
      refine iff_of_true ?_ ⟨r, rfl, hstatus⟩
      unfold storeReply
      simp only [hstatus, Bool.not_true, Bool.false_eq_true, ↓reduceIte]
      exact ⟨_, _, _, rfl⟩
    | false =>
      refine iff_of_false ?_ ?_
      · rintro ⟨_, _, _, h⟩
        unfold storeReply at h
        simp only [hstatus, Bool.not_false, ↓reduceIte] at h
        cases h
      · rintro ⟨_, ⟨⟩, h⟩
        rw [hstatus] at h
        cases h

namespace Gateway

theorem ofContentReply_eq_ok_iff {reply : Http.Reply} :
    (∃ response, ofContentReply reply = .ok response) ↔
      ∃ r, reply = .ok r ∧ r.status = .ok := by
  cases reply with
  | error failure => simp [ofContentReply]
  | ok r =>
    by_cases hstatus : r.status = .ok
    · simp [ofContentReply, hstatus]
    · simp [ofContentReply, hstatus]

variable {g : Gateway} {t u : Task} {cancelled : Bool} {now : Instant}

/-- A task that is found to have succeeded was reported to have, and a copy was tried. -/
theorem follow_succeeds (hopen : t.isFinal = false)
    (hstored : w.tasks.get? t.channelId t.id = some t)
    (hrun : (g.follow t cancelled now).run.run env w = (.ok u, w'))
    (hsuccess : u.status = .success) :
    ∃ told w₁ w₂, (g.report t cancelled).run.run env w = (.ok told, w₁) ∧
      told.1.status = .success ∧
      (g.withCopy (t.advanced told.1 told.2 now) now).run env w₁ = (u, w₂) ∧
      w'.events = w₂.events := by
  have htasks := report_tasks g t cancelled env w
  generalize hreport : (g.report t cancelled).run.run env w = out at htasks
  obtain ⟨r, w₁⟩ := out
  cases r with
  | error e =>
    rw [g.follow_of_error hreport] at hrun
    cases hrun
  | ok told =>
    have hstored₁ : w₁.tasks.get? t.channelId t.id = some t := by rwa [← htasks] at hstored
    by_cases htold : told.1.status = .success
    · generalize hcopy : (g.withCopy (t.advanced told.1 told.2 now) now).run env w₁ = copied
      obtain ⟨u', w₂⟩ := copied
      rw [follow_of_success hreport hopen htold hstored₁ hcopy] at hrun
      obtain ⟨hu, hw⟩ := Prod.mk.inj hrun
      cases hu
      exact ⟨told, w₁, w₂, rfl, htold, hcopy, by rw [← hw]⟩
    · -- Then nothing else makes the task a success.
      cases hadvance : t.advance? told.1 told.2 now with
      | none =>
        rw [g.follow_of_stays hreport hadvance] at hrun
        cases hrun
        rw [Task.isFinal, hsuccess] at hopen
        cases hopen
      | some t' =>
        obtain ⟨-, -, rfl⟩ := Task.advance?_eq_some_iff.mp hadvance
        rw [g.follow_of_unsuccessful hreport hadvance htold hstored₁] at hrun
        cases hrun
        exact absurd hsuccess htold

/-- The call for the octets of a video that was reported goes to the address that was
reported, and carries the key where the vendor wants it. -/
theorem Tells.contentCall? {told : Outcome × Json} (h : g.Tells t told) {url : String}
    (hurl : told.1.url = some url) (hu : u.resultUrl = some url) :
    ∃ c call, g.channelOf t = .ok c ∧ c.contentCall? u = some call ∧
      call = .get url call.headers ∧ (c.vendor ≠ .openAi → call.headers = []) ∧
      (c.vendor = .openAi → c.Keyed call) := by
  obtain ⟨c, question, body, hchannel, hquestion, houtcome, -⟩ := h
  obtain ⟨headers, hheaders, -⟩ := bind_eq_ok_iff.mp hquestion
  obtain ⟨value, hvalue, -⟩ := Channel.headers_eq_ok_iff.mp hheaders
  cases hvendor : c.vendor with
  | doubao | hailuo =>
    refine ⟨c, .get url [], hchannel, ?_, rfl, fun _ => rfl, fun h => nomatch hvendor ▸ h⟩
    simp only [Channel.contentCall?, hvendor, hu, Option.map_some]
  | openAi =>
    obtain ⟨id, rfl⟩ := Channel.outcome_url_of_openAi hvendor houtcome hurl
    refine ⟨c, .get (c.contentUrl id) [("authorization", value)], hchannel, ?_, rfl,
      fun h => absurd hvendor h, fun _ => ⟨⟨value, hvalue, rfl⟩, _, rfl⟩⟩
    simp only [Channel.contentCall?, hvendor, hu, Channel.bearer_eq_ok_iff.mpr hvalue]
    rfl

/-- Where copies are made, the copy of a video whose task turns out to have succeeded is
downloaded from the address at which it is fetched for clients. The call for the copy
carries no header field; the call for clients carries the key of the channel where the
vendor wants it, and is the same call otherwise. For the copy every success status brings
the video, and for clients 200 does. -/
theorem copy_fetched_without_key {channelId : Nat} {taskId : String}
    (ht : w.tasks.get? channelId taskId = some t) (hopen : t.isFinal = false)
    (hpoll : (g.poll channelId taskId cancelled now).run.run env w = (.ok u, w'))
    (hsuccess : u.status = .success) {storage : Storage} (hstorage : g.storage = some storage)
    (hauto : storage.autoUpload = true) :
    ∃ c url call questions copying, g.channelOf t = .ok c ∧ u.resultUrl = some url ∧
      c.contentCall? u = some call ∧ g.Asks t cancelled questions ∧
      w'.events = w.events ++ (questions.map .called ++ copying) ∧
      Attempts (.get url []) copying ∧ call = .get url call.headers ∧
      (c.vendor ≠ .openAi → call.headers = []) ∧ (c.vendor = .openAi → c.Keyed call) ∧
      (∀ reply, (∃ path mediaType next, (storage.storeReply url taskId now reply).run =
          .perform (.bucket (.begin path mediaType)) next) ↔
        ∃ r, reply = .ok r ∧ r.status.isSuccess = true) ∧
      ∀ reply, (∃ response, ofContentReply reply = .ok response) ↔
        ∃ r, reply = .ok r ∧ r.status = .ok := by
  obtain ⟨rfl, rfl⟩ := Prod.mk.inj (TaskStore.key_of_get? ht)
  rw [g.poll_of_open ht hopen] at hpoll
  obtain ⟨told, w₁, w₂, hreport, htold, hcopy, hevents⟩ := follow_succeeds hopen ht hpoll hsuccess
  have htells : g.Tells t told := report_tells hreport
  obtain ⟨url, hurl⟩ := htells.sound.url_of_success htold
  have hadvanced : (t.advanced told.1 told.2 now).resultUrl = some url := by
    show (told.1.url <|> t.resultUrl) = some url
    rw [hurl]
    rfl
  have hu : u.resultUrl = some url := by
    obtain ⟨rfl | ⟨key, link, rfl⟩, -⟩ := withCopy_run hcopy
    · exact hadvanced
    · exact hadvanced
  obtain ⟨c, call, hc, hcall, hsame, hplain, hkeyed⟩ := htells.contentCall? hurl hu
  have htends : (g.report t cancelled).run.Tends env t _ := g.report_tends t cancelled
  obtain ⟨_, _, ⟨-, ⟨questions, rfl, hasks⟩, -⟩, -, hasked, -⟩ := htends.run ht
  obtain ⟨copying, hcopying, hattempts⟩ :=
    withCopy_fetches hstorage hauto hadvanced now env w₁
  rw [hreport] at hasked
  rw [hcopy, hasked, List.append_assoc, ← hevents] at hcopying
  exact ⟨c, url, call, questions, copying, hc, hu, hcall, hasks, hcopying, hattempts, hsame, hplain,
    hkeyed, storage.storeReply_begins_iff url t.id now, fun _ => ofContentReply_eq_ok_iff⟩

/-- A vendor that wants its key for the octets of a video, and a bucket for copies. -/
def copyingSample : Gateway :=
  ⟨[], [.new 3 .openAi "http://openai.test" "vendor-key"],
    some ⟨.inMemory "http://cdn.test" "", true, none⟩, ⟨0, 0⟩⟩

/-- Surroundings in which the octets are given to those who show a key. -/
def copyingSurroundings : Surroundings Unit where
  reply call _ :=
    if call.url = "http://openai.test/v1/videos/video_1/content" then
      if (call.headers.get? "authorization").isSome then (.ok ⟨.ok, [], [1, 2, 3], true⟩, ())
      else (.ok ⟨.unauthorized, [], [], true⟩, ())
    else (.ok ⟨.ok, [], Text.Utf8.encode video, true⟩, ())
  refuses _ _ := (false, ())
where
  video := "\x7b\"id\":\"video_1\",\"status\":\"completed\",\"progress\":100\x7d"

def copyingWorld : World Unit :=
  ((copyingSample.submit { Request.sample with model := "sora-2" } false ⟨0⟩).run.run
    copyingSurroundings (.fresh .starter ())).2

def copyingPoll : Except GatewayError Task × World Unit :=
  (copyingSample.poll 3 "video_1" false ⟨1⟩).run.run copyingSurroundings copyingWorld

/-- The copy of the video is fetched without the key that goes with the video. -/
theorem copyingPoll_fetched_without_key : ∃ c ∈ copyingSample.registry, ∃ call questions copying,
    c.Keyed call ∧ Attempts (.get call.url []) copying ∧
      copyingPoll.2.events = copyingWorld.events ++ (List.map .called questions ++ copying) := by
  have hstored : (copyingWorld.tasks.get? 3 "video_1").map (·.isFinal) = some false := by
    decide +kernel
  have hstatus : copyingPoll.1.toOption.map (·.status) = some .success := by decide +kernel
  obtain ⟨t, ht, hopen⟩ := Option.map_eq_some_iff.mp hstored
  cases hresult : copyingPoll.1 with
  | error e =>
    rw [hresult] at hstatus
    cases hstatus
  | ok u =>
    rw [hresult] at hstatus
    have hpoll : (copyingSample.poll 3 "video_1" false ⟨1⟩).run.run copyingSurroundings
        copyingWorld = (.ok u, copyingPoll.2) := Prod.ext hresult rfl
    obtain ⟨c, url, call, questions, copying, hc, -, -, -, hevents, hattempts, hsame, -, hkeyed,
      -⟩ := copy_fetched_without_key ht hopen hpoll (Option.some.inj hstatus) rfl rfl
    have hmem := mem_of_channelOf hc
    obtain rfl := List.mem_singleton.mp hmem
    have hurl : call.url = url := by rw [hsame]; rfl
    exact ⟨_, hmem, call, questions, copying, hkeyed rfl, hurl ▸ hattempts, hevents⟩

/-- No copy is made of a video that clients get: the vendor refuses the call for the
copy, which shows no key. -/
theorem copyingPoll_copy_lost :
    copyingPoll.1.toOption.map (fun t => (t.status, t.storageKey)) = some (.success, none) ∧
    copyingPoll.2.calls.getLast?.map (fun call => (call.url, call.headers)) =
      some ("http://openai.test/v1/videos/video_1/content", []) ∧
    let content := (copyingSample.content "video_1").run.run copyingSurroundings copyingPoll.2
    content.1.toOption.map (·.body) = some [1, 2, 3] ∧
    content.2.calls.getLast?.map (fun call => (call.url, call.headers)) =
      some ("http://openai.test/v1/videos/video_1/content",
        [("authorization", Text.Utf8.encode "Bearer vendor-key")]) := by
  decide +kernel

end Gateway

end VideoGateway

import VideoGateway.Proofs.Gateway.Fetching
import VideoGateway.Proofs.Gateway.Upheld

/-!
# A key goes to its channel only

Calls that carry a key are for places below the base address of the channel whose key
it is. One vendor wants the key for the octets of a video too, whose address is
remembered from an earlier answer. That it is a place of the channel holds of every
record, because the channel made the address and not the vendor.
-/
namespace VideoGateway

variable {σ : Type}

namespace Channel

/-- The call carries the key of the channel, once, and goes to a place below the base
address of the channel. -/
structure Keyed (c : Channel) (call : Http.Call) : Prop where
  authorization : ∃ value, Http.HeaderValue.ofText? ("Bearer " ++ c.key) = some value ∧
    call.headers.filter (·.1 == "authorization") = [("authorization", value)]
  url : ∃ path, call.url = Text.trimRight (· == '/') c.baseUrl ++ "/" ++ path

variable {c : Channel} {call : Http.Call}

theorem bearer_eq_ok_iff {key : String} {value : Bytes} :
    bearer key = .ok value ↔ Http.HeaderValue.ofText? ("Bearer " ++ key) = some value := by
  unfold bearer
  cases Http.HeaderValue.ofText? ("Bearer " ++ key) with
  | none => simp
  | some value' => simp

/-- The header fields of a call of a vendor's channel, with the value that carries the
key. -/
def headersWith (v : Vendor) (authorization : Bytes) : Http.Headers :=
  match v with
  | .doubao => [("content-type", Http.HeaderValue.applicationJson),
      ("accept", Http.HeaderValue.applicationJson), ("authorization", authorization)]
  | .hailuo | .openAi => [("content-type", Http.HeaderValue.applicationJson),
      ("authorization", authorization)]

theorem headers_eq_ok_iff {headers : Http.Headers} : c.headers = .ok headers ↔
    ∃ value, Http.HeaderValue.ofText? ("Bearer " ++ c.key) = some value ∧
      headersWith c.vendor value = headers := by
  simp only [Channel.headers, bind_eq_ok_iff, bearer_eq_ok_iff]
  refine exists_congr fun value => and_congr_right fun _ => ?_
  cases c.vendor with
  | doubao | hailuo | openAi => exact Iff.of_eq (Except.ok.injEq _ _)

theorem keyed_of_headers (h : c.headers = .ok call.headers) {path : String}
    (hurl : call.url = endpoint c.baseUrl path) : c.Keyed call := by
  obtain ⟨value, hvalue, hheaders⟩ := headers_eq_ok_iff.mp h
  refine ⟨⟨value, hvalue, ?_⟩, _, hurl⟩
  rw [← hheaders]
  cases c.vendor with
  | doubao | hailuo | openAi => rfl

theorem submitCall_keyed {payload : Json} (h : c.submitCall payload = .ok call) :
    c.Keyed call := by
  obtain ⟨headers, hheaders, hcall⟩ := bind_eq_ok_iff.mp h
  cases hcall
  exact keyed_of_headers hheaders rfl

theorem statusCall_keyed {taskId : String} (h : c.statusCall taskId = .ok call) :
    c.Keyed call := by
  obtain ⟨headers, hheaders, hcall⟩ := bind_eq_ok_iff.mp h
  cases hcall
  cases c.vendor with
  | doubao | hailuo | openAi => exact keyed_of_headers hheaders rfl

theorem fileCall_keyed {fileId : String} (h : c.fileCall fileId = .ok call) : c.Keyed call := by
  obtain ⟨headers, hheaders, hcall⟩ := bind_eq_ok_iff.mp h
  cases hcall
  exact keyed_of_headers hheaders rfl

/-- Where videos are fetched with the key, the address of the result is a place of the
channel. -/
def OwnsResult (c : Channel) (t : Task) : Prop :=
  c.vendor = .openAi → ∀ url, t.resultUrl = some url → ∃ path, url = endpoint c.baseUrl path

theorem contentCall?_cases {t : Task} (ht : c.OwnsResult t) (h : c.contentCall? t = some call) :
    c.vendor ≠ .openAi ∧ t.resultUrl = some call.url ∧ call = .get call.url [] ∨
      c.vendor = .openAi ∧ c.Keyed call := by
  unfold contentCall? at h
  cases hc : c.vendor with
  | doubao | hailuo =>
    rw [hc] at h
    obtain ⟨url, hurl, rfl⟩ := Option.map_eq_some_iff.mp h
    exact .inl ⟨nofun, hurl, rfl⟩
  | openAi =>
    rw [hc] at h
    obtain ⟨value, hvalue, rfl⟩ := Option.map_eq_some_iff.mp h
    refine .inr ⟨rfl, ⟨value, ?_, rfl⟩, ?_⟩
    · cases hbearer : bearer c.key with
      | error e =>
        rw [hbearer] at hvalue
        cases hvalue
      | ok value' =>
        rw [hbearer] at hvalue
        cases hvalue
        exact bearer_eq_ok_iff.mp hbearer
    · cases hurl : t.resultUrl with
      | none => exact ⟨_, rfl⟩
      | some url =>
        obtain ⟨path, rfl⟩ := ht hc url hurl
        exact ⟨_, rfl⟩

end Channel

namespace Gateway

variable {g : Gateway}

/-- The channel of a task owns the address of its result, if it wants its key for it. -/
def OwnsResult (g : Gateway) (t : Task) : Prop :=
  ∀ c, g.registry.byId? t.channelId = some c → c.OwnsResult t

/-- The call carries no header field, or the key of a channel, to this channel. -/
def KeepsKeys (g : Gateway) (call : Http.Call) : Prop :=
  call = .get call.url [] ∨ ∃ c ∈ g.registry, c.Keyed call

theorem Tells.ownsResult {t : Task} {told : Outcome × Json} (h : g.Tells t told)
    (ht : g.OwnsResult t) (now : Instant) : g.OwnsResult (t.advanced told.1 told.2 now) := by
  obtain ⟨channel, -, body, hchannel, -, houtcome, -⟩ := h
  intro c hfound hc url hurl
  have hfound : g.registry.byId? t.channelId = some c := hfound
  rw [channelOf, hfound] at hchannel
  obtain rfl : c = channel := Except.ok.inj hchannel
  have hurl : (told.1.url <|> t.resultUrl) = some url := hurl
  cases htold : told.1.url with
  | none =>
    rw [htold] at hurl
    exact ht c hfound hc url hurl
  | some url' =>
    rw [htold] at hurl
    obtain rfl : url' = url := Option.some.inj hurl
    obtain ⟨id, rfl⟩ := Channel.outcome_url_of_openAi hc houtcome htold
    exact ⟨_, rfl⟩

theorem channelOf_eq_ok_iff {t : Task} {c : Channel} :
    g.channelOf t = .ok c ↔ g.registry.byId? t.channelId = some c := by
  unfold channelOf
  cases g.registry.byId? t.channelId with
  | none => simp
  | some c' => simp

theorem mem_of_channelOf {t : Task} {c : Channel} (h : g.channelOf t = .ok c) :
    c ∈ g.registry :=
  List.mem_of_find?_eq_some (channelOf_eq_ok_iff.mp h)

/-- Where every channel owns the results that it wants its key for, calls keep the keys. -/
theorem maintains_keepsKeys (g : Gateway) : g.Maintains g.OwnsResult g.KeepsKeys where
  accepts t h := by
    obtain ⟨channel, -, status, body, accepted, action, params, ratio, now, -, rfl⟩ := h
    intro c _ _ url hurl
    cases hurl
  advanced t told now ht htold := htold.ownsResult ht now
  timedOut t now ht := ht
  withStored t key url _ ht := ht
  submitCall c hc payload call h := .inr ⟨c, hc, Channel.submitCall_keyed h⟩
  statusCall t c call hc h := .inr ⟨c, mem_of_channelOf hc, Channel.statusCall_keyed h⟩
  fileCall t c fileId call hc h := .inr ⟨c, mem_of_channelOf hc, Channel.fileCall_keyed h⟩
  plainCall url := .inl rfl
  contentCall t c call ht hc h := by
    rcases Channel.contentCall?_cases (ht c hc) h with ⟨-, -, hplain⟩ | ⟨-, hkeyed⟩
    · exact .inl hplain
    · exact .inr ⟨c, List.mem_of_find?_eq_some hc, hkeyed⟩

/-- Whatever is done, in every order of the effects, a call carries no header field or
the key of one channel, and then it goes to a place below the base address of this
channel. No header field goes with what is called for the copy of a video, and a video
is served from the stored copy and from addresses that a vendor told without any. -/
theorem keys_confined (g : Gateway) (env : Surroundings σ) (w₀ : World σ)
    (history : List Session.Turn) :
    let w := ((Session.opened w₀.withoutTasks).after g env history).world
    (∃ es, w.events = w₀.events ++ es ∧ ∀ call, .called call ∈ es →
      call = .get call.url [] ∨ ∃ c ∈ g.registry, c.Keyed call) ∧
    (∀ t now, ∃ es, ((g.withCopy t now).run env w).2.events = w.events ++ es ∧
      ∀ call, .called call ∈ es → t.resultUrl = some call.url ∧ call = .get call.url []) ∧
    ∀ taskId, ∃ es, ((g.content taskId).run.run env w).2.events = w.events ++ es ∧
      ∀ call, .called call ∈ es → ∃ t c, w.tasks.find? taskId = some t ∧
        g.registry.byId? t.channelId = some c ∧
        let link := ((g.refreshed t).run env w).1.storageUrl
        (link = some call.url ∧ call = .get call.url [] ∨
          link = none ∧ c.vendor ≠ .openAi ∧ t.resultUrl = some call.url ∧
            call = .get call.url [] ∨
          link = none ∧ c.vendor = .openAi ∧ c.Keyed call) := by
  intro w
  have hupheld := (Session.opened_upholds w₀.withoutTasks w₀.withoutTasks_all).after
    g.maintains_keepsKeys env history
  refine ⟨hupheld.calls, fun t now => g.withCopy_calls t now env w, fun taskId => ?_⟩
  obtain ⟨es, hes, hnone | ⟨t, c, call, ht, hc, hplace, hattempts⟩⟩ :=
    g.content_fetches taskId env w
  · exact ⟨es, hes, fun call hcall => by rw [hnone] at hcall; cases hcall⟩
  refine ⟨es, hes, fun call' hcall' => ⟨t, c, ht, hc, ?_⟩⟩
  obtain rfl := hattempts.eq_of_called hcall'
  obtain ⟨channelId, hstored⟩ := TaskStore.find?_eq_some_iff.mp ht
  have howns : c.OwnsResult t := hupheld.tasks _ _ _ hstored c hc
  obtain ⟨link, hshown⟩ := g.refreshed_run t env w
  rw [hshown] at hplace ⊢
  rcases contentPlace_eq_fetch_iff.mp hplace with ⟨url, rfl, -, rfl⟩ | ⟨rfl, hfetch⟩
  · exact .inl ⟨rfl, rfl⟩
  · rcases Channel.contentCall?_cases howns hfetch with ⟨hvendor, hurl, hplain⟩ | ⟨hvendor, hkeyed⟩
    · exact .inr (.inl ⟨rfl, hvendor, hurl, hplain⟩)
    · exact .inr (.inr ⟨rfl, hvendor, hkeyed⟩)

def sampleBeginning : List Session.Turn :=
  [.start (.submit Request.sample false ⟨0⟩), .act 0, .act 0]

/-- The call of the sample carries a key, which is that of a channel of the sample. -/
theorem sample_keys_confined :
    ∃ call ∈ ((Session.opened (World.fresh .starter ()).withoutTasks).after sample
      sampleSurroundings sampleBeginning).world.calls,
      call.headers ≠ [] ∧ ∃ c ∈ sample.registry, c.Keyed call := by
  have hsent : ((Session.opened (World.fresh .starter ()).withoutTasks).after sample
      sampleSurroundings sampleBeginning).world.calls.map (·.headers.isEmpty) = [false] := by
    decide +kernel
  obtain ⟨⟨es, hes, hcalls⟩, -⟩ :=
    keys_confined sample sampleSurroundings (World.fresh .starter ()) sampleBeginning
  obtain ⟨call, hmade, hheaders⟩ := List.map_eq_singleton_iff.mp hsent
  have hcall : .called call ∈ es := by
    rw [World.calls, hes] at hmade
    obtain ⟨event, hevent, hcalled⟩ := List.mem_filterMap.mp (hmade ▸ List.mem_singleton_self call)
    cases event with
    | called c =>
      cases hcalled
      exact hevent
    | waited ms => cases hcalled
  have hne : call.headers ≠ [] := by
    rintro hnone
    rw [hnone] at hheaders
    cases hheaders
  refine ⟨call, hmade ▸ List.mem_singleton_self call, hne, ?_⟩
  exact (hcalls call hcall).resolve_left fun hplain => hne (by rw [hplain]; rfl)

end Gateway

end VideoGateway

import VideoGateway.Proofs.Gateway.Document
import VideoGateway.Proofs.Gateway.Inquiry
import VideoGateway.Proofs.Gateway.RefusedPoll

/-!
# A poll keeps to its task

A poll of a task goes back to the channel that accepted it, changes no other
record, and leaves the store as it is unless the vendor's report moves the task
on. That a copy of the video cannot be made does not keep the success from being
recorded.
-/
namespace VideoGateway

variable {σ : Type} {env : Surroundings σ} {w w' : World σ}

namespace Gateway

variable {g : Gateway} {t : Task} {cancelled : Bool} {now : Instant}

/-- The request for a task went out on a channel, and the record of the task goes
back to the one that was written then. -/
def AcceptedOn (g : Gateway) (env : Surroundings σ) (w₀ w : World σ) (t : Task)
    (channel : Channel) : Prop :=
  ∃ r cancelled receipt p w₁ w₂ t₀, g.Reaches env w₀ w₁ ∧
    (g.submit r cancelled t₀.createdAt).run.run env w₁ = (.ok receipt, w₂) ∧
    SentOut channel p w₁ w₂ receipt t₀ ∧ g.Reaches env w₂ w ∧ t₀.Evolves t

theorem Reaches.accepted {w₀ : World σ} {channelId : Nat} {taskId : String}
    (h : g.Reaches env w₀.withoutTasks w) (ht : w.tasks.get? channelId taskId = some t) :
    ∃ channel ∈ g.registry, channel.id = channelId ∧
      g.AcceptedOn env w₀.withoutTasks w t channel := by
  obtain ⟨w₁, w₂, t₀, hbefore, hwrites, hafter, hle⟩ := h.writes ht
  obtain ⟨r, cancelled, hsubmit⟩ := hwrites.submitted
  obtain ⟨hsent, -⟩ := submit_all_or_nothing g env w₁ r cancelled t₀.createdAt hsubmit
  obtain ⟨channel, model, task, hroute, hout⟩ := hsent _ rfl
  -- The submission wrote one record, so the two that are told of are the same.
  have hsame : t₀ = task := by
    rcases hout.added.get?_cases hwrites.added.get?_self with hold | hnew
    · rw [TaskStore.find?_eq_none_iff.mp hwrites.added.free t₀.channelId] at hold
      cases hold
    · exact hnew
  subst hsame
  have hchannel : t₀.channelId = channel.id := congrArg Prod.fst hout.key
  have hkey : t.channelId = channelId := congrArg Prod.fst (TaskStore.key_of_get? ht)
  refine ⟨channel, Registry.mem_of_resolve hroute, ?_, ?_⟩
  · rw [← hchannel, ← hkey, hle.channelId]
  · exact ⟨r, cancelled, _, _, w₁, w₂, t₀, hbefore, hsubmit, hout, hafter, hle⟩

theorem channelOf_eq_ok {channel : Channel} (hids : (g.registry.map Channel.id).Nodup)
    (hmem : channel ∈ g.registry) (hid : t.channelId = channel.id) :
    g.channelOf t = .ok channel := by
  rw [channelOf, hid, Registry.byId?_of_mem hids hmem]

section Follow

variable {o : Outcome} {data : Json} {w₁ : World σ}

/-- A report that would take the task back is ignored. -/
theorem follow_of_regress
    (hreport : (g.report t cancelled).run.run env w = (.ok (o, data), w₁))
    (hrank : o.status.rank < t.status.rank) :
    (g.follow t cancelled now).run.run env w = (.ok t, w₁) := by
  have hstays : t.advance? o data now = none := by
    rw [Option.eq_none_iff_forall_ne_some]
    intro u hu
    obtain ⟨-, hle, -⟩ := Task.advance?_eq_some_iff.mp hu
    omega
  exact g.follow_of_stays hreport hstays

theorem withCopy_run {u : Task} (hcopy : (g.withCopy t now).run env w = (u, w')) :
    (u = t ∨ ∃ key link, u = t.withStored key link) ∧ w'.tasks = w.tasks := by
  have hensures := g.withCopy_ensures (P := Effect.KeepsTasks) t now (fun _ _ => trivial)
    (fun _ => trivial) fun _ => trivial
  have hresult := hensures.result env w
  have htasks := hensures.run_tasks env w
  rw [hcopy] at hresult htasks
  exact ⟨hresult, htasks⟩

theorem follow_of_success
    (hreport : (g.report t cancelled).run.run env w = (.ok (o, data), w₁))
    (hopen : t.isFinal = false) (hstatus : o.status = .success)
    (hstored : w₁.tasks.get? t.channelId t.id = some t) {u : Task} {w₂ : World σ}
    (hcopy : (g.withCopy (t.advanced o data now) now).run env w₁ = (u, w₂)) :
    (g.follow t cancelled now).run.run env w =
      (.ok u, { w₂ with tasks := w₁.tasks.replace u }) := by
  have hadvance : t.advance? o data now = some (t.advanced o data now) :=
    Task.advance?_of_isFinal hopen (by rw [hstatus]; rfl) data now
  have hsuccess : (t.advanced o data now).status = .success := hstatus
  obtain ⟨hcopied, htasks⟩ := withCopy_run hcopy
  have hplace : w₂.tasks.get? u.channelId u.id = some t := by
    rw [htasks]
    rcases hcopied with rfl | ⟨key, link, rfl⟩
    · exact hstored
    · exact hstored
  rw [g.follow_of_advances hreport hadvance, if_pos hsuccess,
    Attempt.run_bind_of_ok ((Attempt.run_lift _ env _).trans (by rw [hcopy])),
    keep_run hplace, htasks]

theorem withCopy_of_error {storage : Storage} {url : String} {e : StorageError} {w₂ : World σ}
    (hstorage : g.storage = some storage) (hurl : t.resultUrl = some url)
    (hcopy : (storage.copyVideo g.retries url t.id now).run.run env w = (.error e, w₂)) :
    ((g.withCopy t now).run env w).1 = t := by
  unfold withCopy
  rw [hstorage, hurl]
  cases hauto : storage.autoUpload with
  | false =>
    simp only [Option.filter, hauto]
    rfl
  | true =>
    simp only [Option.filter, hauto, ↓reduceIte]
    rw [Program.run_bind, hcopy]
    rfl

end Follow

/-- A poll of an unfinished task ends as it is told and replaces its record. -/
theorem poll_polled {channelId : Nat} {taskId : String} {result : Except GatewayError Task}
    (ht : w.tasks.get? channelId taskId = some t) (hopen : t.isFinal = false)
    (hpoll : (g.poll channelId taskId cancelled now).run.run env w = (result, w')) :
    ∃ es u, g.Polled t cancelled now es result u ∧ u.key = (channelId, taskId) ∧
      w'.events = w.events ++ es ∧ w'.tasks = w.tasks.replace u := by
  have hkey := TaskStore.key_of_get? ht
  obtain ⟨rfl, rfl⟩ := Prod.mk.inj hkey
  have htends : (g.poll t.channelId t.id cancelled now).run.Tends env t
      (g.Polled t cancelled now) := g.poll_tends hopen cancelled now
  obtain ⟨es, u, hends, hu, hevents, htasks⟩ := htends.run ht
  rw [hpoll] at hends hevents htasks
  exact ⟨es, u, hends, hu, hevents, htasks⟩

/-- What a reachable poll of a task asks, it asks the channel that accepted the task. -/
theorem poll_asks_accepting (hids : (g.registry.map Channel.id).Nodup) {w₀ : World σ}
    (hrun : g.Reaches env w₀.withoutTasks w) {channelId : Nat} {taskId : String}
    {result : Except GatewayError Task} (ht : w.tasks.get? channelId taskId = some t)
    (hpoll : (g.poll channelId taskId cancelled now).run.run env w = (result, w')) :
    ∃ channel ∈ g.registry, channel.id = channelId ∧
      g.AcceptedOn env w₀.withoutTasks w t channel ∧
      ∃ calls copying, w'.events = w.events ++ (calls.map .called ++ copying) ∧
        calls.length ≤ (if channel.vendor = .hailuo then 2 else 1) ∧
        (∀ call ∈ calls, ∃ path, call.url = Channel.endpoint channel.baseUrl path) ∧
        (t.isFinal = false → channel.Asked taskId cancelled calls) ∧
        (copying = [] ∨ g.storage.isSome = true ∧ ∃ u url, result = .ok u ∧
          u.status = .success ∧ u.resultUrl = some url ∧ Downloads url copying) := by
  obtain ⟨channel, hmem, hid, haccepted⟩ := hrun.accepted ht
  refine ⟨channel, hmem, hid, haccepted, ?_⟩
  cases hfinal : t.isFinal with
  | true =>
    rw [g.poll_of_isFinal ht hfinal] at hpoll
    obtain ⟨rfl, rfl⟩ := Prod.mk.inj hpoll
    exact ⟨[], [], (List.append_nil _).symm, Nat.zero_le _, nofun, nofun, .inl rfl⟩
  | false =>
    obtain ⟨es, u, hends, -, hevents, -⟩ := poll_polled ht hfinal hpoll
    obtain ⟨calls, copying, rfl, hasks, hcopying⟩ := hends.asks
    obtain ⟨hchannel, htaskId⟩ := Prod.mk.inj (TaskStore.key_of_get? ht)
    have hasked : channel.Asked taskId cancelled calls := by
      unfold Asks at hasks
      rw [channelOf_eq_ok hids hmem (hchannel.trans hid.symm), htaskId] at hasks
      exact hasks
    refine ⟨calls, copying, hevents, hasked.length_le, fun _ => hasked.url, fun _ => hasked, ?_⟩
    rcases hcopying with hnone | ⟨hstorage, hresult, hstatus, url, hurl, hdownloads⟩
    · exact .inl hnone
    · exact .inr ⟨hstorage, u, url, hresult, hstatus, hurl, hdownloads⟩

theorem report_tells {told : Outcome × Json} {w₁ : World σ}
    (hreport : (g.report t cancelled).run.run env w = (.ok told, w₁)) : g.Tells t told := by
  have htells := Program.Ensures.result (g.report_ensures (P := fun _ => True) t cancelled
    (fun _ _ _ _ => trivial) fun _ _ _ _ _ => trivial) env w
  rw [hreport] at htells
  exact htells _ rfl

theorem poll_of_regress {channelId : Nat} {taskId : String} {result : Except GatewayError Task}
    (ht : w.tasks.get? channelId taskId = some t) (hopen : t.isFinal = false)
    (hpoll : (g.poll channelId taskId cancelled now).run.run env w = (result, w'))
    {o : Outcome} {data : Json} {w₁ : World σ}
    (hreport : (g.report t cancelled).run.run env w = (.ok (o, data), w₁))
    (hrank : o.status.rank < t.status.rank) : result = .ok t ∧ w'.tasks = w.tasks := by
  have htasks := report_tasks g t cancelled env w
  rw [g.poll_of_open ht hopen, follow_of_regress hreport hrank] at hpoll
  obtain ⟨rfl, rfl⟩ := Prod.mk.inj hpoll
  rw [hreport] at htasks
  exact ⟨rfl, htasks⟩

/-- A success that is reported is recorded with the address that the vendor gave,
whatever becomes of a copy. -/
theorem poll_of_success {channelId : Nat} {taskId : String} {result : Except GatewayError Task}
    (ht : w.tasks.get? channelId taskId = some t) (hopen : t.isFinal = false)
    (hpoll : (g.poll channelId taskId cancelled now).run.run env w = (result, w'))
    {o : Outcome} {data : Json} {w₁ : World σ}
    (hreport : (g.report t cancelled).run.run env w = (.ok (o, data), w₁))
    (hstatus : o.status = .success) :
    ∃ u url, result = .ok u ∧ w'.tasks = w.tasks.replace u ∧ u.status = .success ∧
      o.url = some url ∧ u.resultUrl = some url ∧
      ∀ storage e w₂, g.storage = some storage →
        (storage.copyVideo g.retries url taskId now).run.run env w₁ = (.error e, w₂) →
        u = t.advanced o data now := by
  have htasks : w₁.tasks = w.tasks := by
    have hkept := report_tasks g t cancelled env w
    rwa [hreport] at hkept
  obtain ⟨hchannel, htaskId⟩ := Prod.mk.inj (TaskStore.key_of_get? ht)
  have hstored : w₁.tasks.get? t.channelId t.id = some t := by
    rw [htasks, hchannel, htaskId]
    exact ht
  obtain ⟨url, hurl⟩ := (report_tells hreport).sound.url_of_success hstatus
  generalize hcopy : (g.withCopy (t.advanced o data now) now).run env w₁ = copied
  obtain ⟨u, w₂⟩ := copied
  rw [g.poll_of_open ht hopen, follow_of_success hreport hopen hstatus hstored hcopy] at hpoll
  obtain ⟨rfl, rfl⟩ := Prod.mk.inj hpoll
  have hadvanced : (t.advanced o data now).resultUrl = some url := by
    show (o.url <|> t.resultUrl) = some url
    rw [hurl]
    rfl
  obtain ⟨hcopied, -⟩ := withCopy_run hcopy
  refine ⟨u, url, rfl, by rw [htasks], ?_, hurl, ?_, fun storage e w₂' hstorage herror => ?_⟩
  · rcases hcopied with rfl | ⟨key, link, rfl⟩
    · exact hstatus
    · exact hstatus
  · rcases hcopied with rfl | ⟨key, link, rfl⟩
    · exact hadvanced
    · exact hadvanced
  · have hsame : ((g.withCopy (t.advanced o data now) now).run env w₁).1 = t.advanced o data now :=
      withCopy_of_error hstorage hadvanced (htaskId ▸ herror)
    rwa [hcopy] at hsame

/-- A poll does nothing for a task that is not there and for one that is finished.
Every other poll asks the channel that accepted the task, at its address; it changes
at most the record of the task, and not even that when it fails or when the report
would take the task back. A success is recorded with the address that the vendor
gave, whatever becomes of a copy. -/
theorem poll_confined (hids : (g.registry.map Channel.id).Nodup) {w₀ : World σ}
    (hrun : g.Reaches env w₀.withoutTasks w) {channelId : Nat} {taskId : String}
    {result : Except GatewayError Task}
    (hpoll : (g.poll channelId taskId cancelled now).run.run env w = (result, w')) :
    ((∃ message, result = .error (.notFound message)) ↔
      w.tasks.get? channelId taskId = none) ∧
    (w.tasks.get? channelId taskId = none → w' = w) ∧
    (∀ e, result = .error e → w'.tasks = w.tasks) ∧
    (∀ c id, (c, id) ≠ (channelId, taskId) → w'.tasks.get? c id = w.tasks.get? c id) ∧
    ∀ t, w.tasks.get? channelId taskId = some t →
      (t.isFinal = true → result = .ok t ∧ w' = w) ∧
      (∃ channel ∈ g.registry, channel.id = channelId ∧
        g.AcceptedOn env w₀.withoutTasks w t channel ∧
        ∃ calls copying, w'.events = w.events ++ (calls.map .called ++ copying) ∧
          calls.length ≤ (if channel.vendor = .hailuo then 2 else 1) ∧
          (∀ call ∈ calls, ∃ path, call.url = Channel.endpoint channel.baseUrl path) ∧
          (t.isFinal = false → channel.Asked taskId cancelled calls) ∧
          (copying = [] ∨ g.storage.isSome = true ∧ ∃ u url, result = .ok u ∧
            u.status = .success ∧ u.resultUrl = some url ∧ Downloads url copying)) ∧
      ∀ o data w₁, t.isFinal = false →
        (g.report t cancelled).run.run env w = (.ok (o, data), w₁) →
        (o.status.rank < t.status.rank → result = .ok t ∧ w'.tasks = w.tasks) ∧
        (o.status = .success → ∃ u url, result = .ok u ∧ w'.tasks = w.tasks.replace u ∧
          u.status = .success ∧ o.url = some url ∧ u.resultUrl = some url ∧
          ∀ storage e w₂, g.storage = some storage →
            (storage.copyVideo g.retries url taskId now).run.run env w₁ = (.error e, w₂) →
            u = t.advanced o data now) := by
  cases ht : w.tasks.get? channelId taskId with
  | none =>
    have hmissing := hpoll
    rw [g.poll_of_get?_eq_none ht] at hmissing
    obtain ⟨hresult, hworld⟩ := Prod.mk.inj hmissing
    subst hworld
    refine ⟨iff_of_true ⟨_, hresult.symm⟩ rfl, fun _ => rfl, fun _ _ => rfl, fun _ _ _ => rfl, ?_⟩
    intro t h
    cases h
  | some t =>
    have hasks := poll_asks_accepting hids hrun ht hpoll
    cases hfinal : t.isFinal with
    | true =>
      have hgiven := hpoll
      rw [g.poll_of_isFinal ht hfinal] at hgiven
      obtain ⟨hresult, hworld⟩ := Prod.mk.inj hgiven
      subst hresult hworld
      refine ⟨iff_of_false (fun ⟨_, h⟩ => nomatch h) nofun, nofun, fun _ _ => rfl,
        fun _ _ _ => rfl, fun u hu => ?_⟩
      cases hu
      refine ⟨fun _ => ⟨rfl, rfl⟩, hasks, fun _ _ _ hopen => ?_⟩
      rw [hfinal] at hopen
      cases hopen
    | false =>
      obtain ⟨es, u, hends, hkey, -, htasks⟩ := poll_polled ht hfinal hpoll
      refine ⟨iff_of_false ?_ nofun, nofun, ?_, ?_, fun v hv => ?_⟩
      · rintro ⟨message, rfl⟩
        exact hends.error.2 message rfl
      · rintro e rfl
        obtain ⟨rfl, -⟩ := hends.error
        obtain ⟨hchannel, htaskId⟩ := Prod.mk.inj hkey
        rw [htasks, TaskStore.replace_self (hchannel ▸ htaskId ▸ ht)]
      · intro c id hne
        rw [htasks, TaskStore.get?_replace_of_ne (hkey ▸ hne)]
      · cases hv
        refine ⟨fun h => ?_, hasks, fun o data w₁ _ hreport => ⟨?_, ?_⟩⟩
        · rw [hfinal] at h
          cases h
        · exact poll_of_regress ht hfinal hpoll hreport
        · exact poll_of_success ht hfinal hpoll hreport

/-- The poll of the sample run sends at most one question, to the one vendor there is. -/
theorem sample_poll_confined : ∃ (t : Task) (calls : List Http.Call),
    sampleRun.2.tasks.get? 7 "t1" = some t ∧
    sampleFinished.events = sampleRun.2.events ++ calls.map .called ∧ calls.length ≤ 1 ∧
    ∀ call ∈ calls, ∃ path, call.url = Channel.endpoint "http://doubao.test" path := by
  have hstored : (sampleRun.2.tasks.get? 7 "t1").isSome = true := by decide +kernel
  obtain ⟨t, ht⟩ := Option.isSome_iff_exists.mp hstored
  have hreached : sample.Reaches sampleSurroundings (World.fresh .starter ()).withoutTasks
      sampleRun.2 := .single (.submit Request.sample false ⟨0⟩)
  have hpoll : (sample.poll 7 "t1" false ⟨1⟩).run.run sampleSurroundings sampleRun.2 =
      (_, sampleFinished) := rfl
  obtain ⟨-, -, -, -, htask⟩ := poll_confined (by decide) hreached hpoll
  obtain ⟨-, ⟨channel, hmem, -, -, calls, copying, hevents, hlength, hurl, -, hcopying⟩, -⟩ :=
    htask t ht
  obtain rfl := List.mem_singleton.mp hmem
  obtain rfl : copying = [] := hcopying.resolve_right fun h => nomatch h.1
  rw [List.append_nil] at hevents
  have hbase : Channel.baseUrl (.new 7 .doubao "http://doubao.test" "key") =
      "http://doubao.test" := by
    decide +kernel
  rw [hbase] at hurl
  exact ⟨t, calls, ht, hevents, hlength, hurl⟩

end Gateway

end VideoGateway

import VideoGateway.Http.Client
import VideoGateway.Proofs.Gateway.Fetching
import VideoGateway.Proofs.Url.Pair
import VideoGateway.Proofs.Url.Tail

/-!
# Which task a question is about

One vendor gets the id of the task in the query, where every id has a form of its own. The others
get it as the end of the path, as it is: there an id has its place to itself unless it holds marks
of the syntax of addresses, and with such marks it may look like another id.
-/
namespace VideoGateway

namespace Url

/-- The address as it is sent, without the credentials. -/
def anonymous (u : Url) : Url :=
  { u with user := "", password := "" }

theorem anonymous_addPair (u : Url) (name value : String) :
    (u.addPair name value).anonymous = u.anonymous.addPair name value := by
  have hquery : u.anonymous.query = u.query := rfl
  rw [addPair, addPair, hquery]
  cases u.query with
  | none => rfl
  | some query => rfl

theorem anonymous_continued (u : Url) (cs : List Char) :
    (u.continued cs).anonymous = u.anonymous.continued cs := by
  have hfragment : u.anonymous.fragment = u.fragment := rfl
  have hquery : u.anonymous.query = u.query := rfl
  rw [continued, continued, hfragment]
  cases u.fragment with
  | some fragment => rfl
  | none =>
    rw [hquery]
    cases u.query with
    | some query => rfl
    | none => rfl

theorem base_addPair (u : Url) (name value : String) : (u.addPair name value).base = u.base := by
  rw [addPair]
  cases u.query with
  | none => rfl
  | some query => rfl

theorem exists_query_addPair (u : Url) (name : String) : ∃ front : String, ∀ value,
    (u.addPair name value).query = some (front ++ pairText value) := by
  cases hquery : u.query with
  | none =>
    refine ⟨pairText name ++ "=", ?_⟩
    intro value
    rw [addPair, hquery]
  | some query =>
    refine ⟨if query.isEmpty then pairText name ++ "=" else query ++ "&" ++ (pairText name ++ "="),
      ?_⟩
    intro value
    rw [addPair, hquery]
    dsimp only
    cases query.isEmpty with
    | true => rfl
    | false =>
      rw [if_neg Bool.false_ne_true, if_neg Bool.false_ne_true]
      simp only [String.append_assoc]

theorem exists_text_addPair (u : Url) (name : String) : ∃ front : String, ∀ value,
    (u.addPair name value).text = front ++ pairText value := by
  obtain ⟨front, hquery⟩ := u.exists_query_addPair name
  refine ⟨u.base ++ "?" ++ front, ?_⟩
  intro value
  rw [text, hquery]
  dsimp only
  rw [base_addPair, ← String.append_assoc]

end Url

/-- The id has its place to itself at the end of a path. -/
structure PlainId (id : String) : Prop where
  stays : Url.Stays id.toList
  noPercent : '%' ∉ id.toList

namespace Http

theorem Call.toSent?_url {call : Call} {m : Sent} (h : call.toSent? = some m) :
    ∃ u, Url.parse? call.url = some u ∧ m.url = (u.addPairs call.query).anonymous := by
  unfold toSent? at h
  cases hurl : Url.parse? call.url with
  | none =>
    rw [hurl] at h
    cases h
  | some u =>
    rw [hurl] at h
    dsimp only at h
    split at h
    · obtain rfl := Option.some.inj h
      exact ⟨u, rfl, rfl⟩
    · cases h

end Http

namespace Channel

variable {c : Channel} {id id' : String}

theorem statusCall_hailuo (hvendor : c.vendor = .hailuo) {call : Http.Call}
    (h : c.statusCall id = .ok call) :
    call.url = endpoint c.baseUrl "/v1/query/video_generation" ∧
      call.query = [("task_id", id)] := by
  obtain ⟨headers, -, h⟩ := bind_eq_ok_iff.mp h
  rw [hvendor] at h
  cases h
  exact ⟨rfl, rfl⟩

theorem statusCall_of_ne_hailuo (hvendor : c.vendor ≠ .hailuo) {call : Http.Call}
    (h : c.statusCall id = .ok call) :
    call.url = endpoint c.baseUrl (c.vendor.submitPath ++ "/" ++ id) ∧ call.query = [] := by
  obtain ⟨headers, -, h⟩ := bind_eq_ok_iff.mp h
  cases hv : c.vendor with
  | hailuo => exact absurd hv hvendor
  | doubao | openAi =>
    rw [hv] at h
    cases h
    exact ⟨rfl, rfl⟩

theorem submitPath_of_ne_hailuo {v : Vendor} (hv : v ≠ .hailuo) : ∃ first rest,
    v.submitPath.toList = '/' :: first :: (rest ++ ['s']) ∧ first ≠ '/' ∧
      '#' ∉ first :: rest := by
  cases v with
  | hailuo => exact absurd rfl hv
  | doubao => exact ⟨'a', "pi/v3/contents/generations/task".toList, rfl, by decide, by decide⟩
  | openAi => exact ⟨'v', "1/video".toList, rfl, by decide, by decide⟩

theorem endpoint_append (baseUrl rest : String) {path : String} {c : Char} {cs : List Char}
    (hpath : path.toList = '/' :: c :: cs) (hc : c ≠ '/') : endpoint baseUrl (path ++ rest) =
      Text.trimRight (· == '/') baseUrl ++ "/" ++ String.ofList (c :: cs) ++ rest := by
  have hslash : ¬ (c == '/') = true := by simpa using hc
  rw [endpoint, Text.trimLeft, String.toList_append, hpath, List.cons_append,
    List.dropWhile_cons_of_pos (by decide), List.cons_append,
    List.dropWhile_cons_of_neg (p := (· == '/')) hslash, ← List.cons_append, String.ofList_append,
    String.ofList_toList, ← String.append_assoc]

/-- Before the id there is the same place for all questions. -/
theorem exists_statusCall_url (hvendor : c.vendor ≠ .hailuo) : ∃ front : String,
    Url.Hosted front ∧ ('#' ∉ c.baseUrl.toList → '#' ∉ front.toList) ∧
      ∀ id call, c.statusCall id = .ok call → call.url = front ++ "/" ++ id ∧ call.query = [] := by
  obtain ⟨first, rest, hpath, hfirst, hrest⟩ := submitPath_of_ne_hailuo hvendor
  refine ⟨Text.trimRight (· == '/') c.baseUrl ++ "/" ++ String.ofList (first :: rest) ++
    String.singleton 's', Url.hosted_append rfl (by decide) (by decide) _, ?_, ?_⟩
  · intro hbase
    have htrimmed : '#' ∉ (Text.trimRight (· == '/') c.baseUrl).toList := by
      rw [Text.trimRight, String.toList_ofList]
      exact fun hmem => hbase ((List.rdropWhile_prefix _ _).subset hmem)
    simp only [String.toList_append, String.toList_ofList, String.toList_singleton,
      List.mem_append, not_or]
    exact ⟨⟨⟨htrimmed, by decide⟩, hrest⟩, by decide⟩
  · intro id call hcall
    obtain ⟨hurl, hquery⟩ := statusCall_of_ne_hailuo hvendor hcall
    refine ⟨?_, hquery⟩
    have hlast : String.ofList (first :: (rest ++ ['s'])) =
        String.ofList (first :: rest) ++ String.singleton 's' := by
      rw [← List.cons_append, String.ofList_append]
      rfl
    rw [hurl, String.append_assoc, endpoint_append _ _ hpath hfirst, hlast]
    simp only [String.append_assoc]

theorem eq_of_text_eq {front : String} (hfront : Url.Hosted front) (hfragment : '#' ∉ front.toList)
    (hid : PlainId id) (hid' : PlainId id') {u u' : Url}
    (hu : Url.parse? (front ++ "/" ++ id) = some u)
    (hu' : Url.parse? (front ++ "/" ++ id') = some u')
    (h : u.anonymous.text = u'.anonymous.text) : id = id' := by
  rw [Url.parse?_append hfront hid.stays.counts] at hu
  rw [Url.parse?_append hfront hid'.stays.counts] at hu'
  obtain ⟨place, hplace, rfl⟩ := Option.map_eq_some_iff.mp hu
  obtain ⟨place', hplace', rfl⟩ := Option.map_eq_some_iff.mp hu'
  obtain rfl : place = place' := Option.some.inj (hplace.symm.trans hplace')
  obtain ⟨hnone, -, hpath⟩ := Url.parse?_slash hfront hfragment hplace
  rw [Url.anonymous_continued, Url.anonymous_continued] at h
  exact String.toList_inj.mp (Url.continued_text_inj (u := place.anonymous) hnone hpath hid.stays
    hid'.stays hid.noPercent hid'.noPercent h)

/-- Different ids make different questions, where they are plain or go into the query. -/
theorem statusCall_text_inj (c : Channel)
    (hplain : c.vendor ≠ .hailuo → '#' ∉ c.baseUrl.toList ∧ PlainId id ∧ PlainId id')
    {call call' : Http.Call} (hcall : c.statusCall id = .ok call)
    (hcall' : c.statusCall id' = .ok call') {m m' : Http.Sent} (hm : call.toSent? = some m)
    (hm' : call'.toSent? = some m') (h : m.url.text = m'.url.text) : id = id' := by
  obtain ⟨u, hu, hurl⟩ := Http.Call.toSent?_url hm
  obtain ⟨u', hu', hurl'⟩ := Http.Call.toSent?_url hm'
  rw [hurl, hurl'] at h
  by_cases hvendor : c.vendor = .hailuo
  · obtain ⟨hplace, hquery⟩ := statusCall_hailuo hvendor hcall
    obtain ⟨hplace', hquery'⟩ := statusCall_hailuo hvendor hcall'
    rw [hplace] at hu
    rw [hplace'] at hu'
    obtain rfl : u = u' := Option.some.inj (hu.symm.trans hu')
    obtain ⟨front, htext⟩ := u.anonymous.exists_text_addPair "task_id"
    have hpair : ∀ value, (u.addPairs [("task_id", value)]).anonymous.text =
        front ++ Url.pairText value := by
      intro value
      rw [← htext value, ← Url.anonymous_addPair]
      rfl
    rw [hquery, hquery', hpair, hpair, String.append_right_inj] at h
    exact Url.pairText_injective h
  · obtain ⟨hbase, hid, hid'⟩ := hplain hvendor
    obtain ⟨front, hfront, hfragment, hstatus⟩ := c.exists_statusCall_url hvendor
    obtain ⟨hplace, hquery⟩ := hstatus id call hcall
    obtain ⟨hplace', hquery'⟩ := hstatus id' call' hcall'
    rw [hplace] at hu
    rw [hplace'] at hu'
    rw [hquery, hquery'] at h
    exact eq_of_text_eq hfront (hfragment hbase) hid hid' hu hu' h

end Channel

namespace Gateway

variable {σ σ' : Type} {c : Channel} {id id' : String}

theorem run_events_append (p : Program α) (env : Surroundings σ) (w : World σ) :
    ∃ more, (p.run env w).2.events = w.events ++ more := by
  have hensures : p.Ensures (fun _ => True) fun _ => True := by
    induction p with
    | done a => exact .done trivial
    | perform e next ih => exact .perform trivial ih
  obtain ⟨more, hmore, -⟩ := hensures.run_events env w
  exact ⟨more, hmore⟩

theorem fetchStatus_events {call : Http.Call} (h : c.statusCall id = .ok call)
    (env : Surroundings σ) (w : World σ) : ∃ more,
      ((fetchStatus c id false).run.run env w).2.events = w.events ++ .called call :: more := by
  obtain ⟨next, hrun⟩ : ∃ next, (fetchStatus c id false).run = .perform (.call call) next := by
    unfold fetchStatus
    rw [h]
    exact ⟨_, rfl⟩
  obtain ⟨more, hmore⟩ := run_events_append (next (env.reply call w.outside).1) env
    ((Effect.call call).perform env w).2
  refine ⟨more, ?_⟩
  rw [hrun, Program.run_perform, ← List.singleton_append, ← List.append_assoc]
  exact hmore

theorem fetchStatus_asks {cancelled : Bool} {env : Surroundings σ} {w : World σ} {call : Http.Call}
    {more : List Event} (h : ((fetchStatus c id cancelled).run.run env w).2.events =
      w.events ++ .called call :: more) : c.statusCall id = .ok call := by
  have hsome : w.events ≠ w.events ++ .called call :: more := by
    intro hnone
    exact List.cons_ne_nil _ _ (List.self_eq_append_right.mp hnone)
  cases hcall : c.statusCall id with
  | error e =>
    unfold fetchStatus at h
    rw [hcall] at h
    exact absurd h hsome
  | ok asked =>
    cases cancelled with
    | true =>
      unfold fetchStatus at h
      rw [hcall] at h
      exact absurd h hsome
    | false =>
      obtain ⟨later, hlater⟩ := fetchStatus_events hcall env w
      rw [hlater, List.append_right_inj] at h
      rw [Event.called.inj (List.cons.inj h).1]

/-- The first requests for two tasks of one channel have different addresses, as their server sees
them: with one vendor for all ids, with the others for all plain ones. -/
theorem first_requests_differ (c : Channel) (hne : id ≠ id')
    (hplain : c.vendor ≠ .hailuo → '#' ∉ c.baseUrl.toList ∧ PlainId id ∧ PlainId id')
    {cancelled cancelled' : Bool} {env : Surroundings σ} {env' : Surroundings σ'} {w : World σ}
    {w' : World σ'} {call call' : Http.Call} {more more' : List Event}
    (hasks : ((fetchStatus c id cancelled).run.run env w).2.events =
      w.events ++ .called call :: more)
    (hasks' : ((fetchStatus c id' cancelled').run.run env' w').2.events =
      w'.events ++ .called call' :: more')
    {m m' : Http.Sent} (hm : call.toSent? = some m) (hm' : call'.toSent? = some m') :
    m.url.text ≠ m'.url.text := by
  intro htext
  exact hne (c.statusCall_text_inj hplain (fetchStatus_asks hasks) (fetchStatus_asks hasks') hm hm'
    htext)

def pathChannel : Channel :=
  .new 1 .openAi "http://openai.test" "vendor-key"

def offline : Surroundings Unit where
  reply _ _ := (.error .disconnected, ())
  refuses _ _ := (false, ())

/-- The first request for the state of a task, as its server gets it. -/
def firstSent? (c : Channel) (id : String) : Option Http.Sent :=
  match ((fetchStatus c id false).run.run offline (.fresh .starter ())).2.events with
  | .called call :: _ => call.toSent?
  | _ => none

theorem firstSent?_eq_some {m : Http.Sent} (h : firstSent? c id = some m) :
    ∃ call more, ((fetchStatus c id false).run.run offline (.fresh .starter ())).2.events =
      .called call :: more ∧ call.toSent? = some m := by
  unfold firstSent? at h
  split at h
  · next call more hevents => exact ⟨call, more, hevents, h⟩
  · cases h

/-- An id may have further segments and a query. -/
theorem pathChannel_requests_differ : PlainId "t1" ∧ PlainId "t1/a?b=c" ∧ ∃ m m',
    firstSent? pathChannel "t1" = some m ∧ firstSent? pathChannel "t1/a?b=c" = some m' ∧
      m.url.text ≠ m'.url.text := by
  have hid : PlainId "t1" := ⟨by decide, by decide⟩
  have hid' : PlainId "t1/a?b=c" := ⟨by decide, by decide⟩
  have hsent : (firstSent? pathChannel "t1").isSome = true := by decide +kernel
  have hsent' : (firstSent? pathChannel "t1/a?b=c").isSome = true := by decide +kernel
  obtain ⟨m, hm⟩ := Option.isSome_iff_exists.mp hsent
  obtain ⟨m', hm'⟩ := Option.isSome_iff_exists.mp hsent'
  obtain ⟨call, more, hcall, hcallSent⟩ := firstSent?_eq_some hm
  obtain ⟨call', more', hcall', hcallSent'⟩ := firstSent?_eq_some hm'
  exact ⟨hid, hid', m, m', hm, hm', first_requests_differ pathChannel (by decide)
    (fun _ => ⟨by decide, hid, hid'⟩) hcall hcall' hcallSent hcallSent'⟩

/-- The id that is taken from an answer with this id. -/
def acceptedId? (id : String) : Option String :=
  (Vendor.openAi.accepted .ok (Text.Utf8.encode ("\x7b\"id\":\"" ++ id ++ "\"\x7d"))).toOption.map
    (·.id)

/-- What stands behind a mark of the syntax is lost: two ids that the vendor may give make one
question. -/
theorem marked_ids_collide : acceptedId? "t1" = some "t1" ∧ acceptedId? "t1#2" = some "t1#2" ∧
    (firstSent? pathChannel "t1").map (·.url.text) = some "http://openai.test/v1/videos/t1" ∧
    (firstSent? pathChannel "t1#2").map (·.url.text) =
      some "http://openai.test/v1/videos/t1" := by
  decide +kernel

end Gateway

end VideoGateway

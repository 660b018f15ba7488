import VideoGateway.Proofs.Gateway.Run

/-!
# Everything that happens to a gateway

Clients, the poller and an operator have the gateway do things, any number of them
at the same time. A history tells what is begun and, between that, who performs the
next effect. Things that are done one after the other are among the histories, and
so is every other order of their effects.
-/
namespace VideoGateway

namespace Gateway

/-- Something that the gateway is to do. -/
inductive Job where
  /-- A request has arrived. -/
  | request (r : Http.Request) (cancelled : Bool) (now : Instant)
  | submit (r : Request) (cancelled : Bool) (now : Instant)
  | poll (channelId : Nat) (taskId : String) (cancelled : Bool) (now : Instant)
  | pass (timeout : Int) (cancelled : Bool) (now : Instant)
  | expire (asOf : Instant) (timeout : Int) (now : Instant)
  | document (taskId : String)
  | content (taskId : String)
  | setRules (rules : PriceRules)

/-- What the one who had it done is told. -/
inductive Answer where
  | response (r : Http.Response)
  | receipt (r : Except GatewayError Receipt)
  | task (r : Except GatewayError Task)
  | expired (r : Except GatewayError Nat)
  | document (r : Except GatewayError VideoDocument)
  | content (r : Except ContentError Http.Response)
  | nothing

def Job.program (g : Gateway) : Job → Program Answer
  | .request r cancelled now => .response <$> g.handle r cancelled now
  | .submit r cancelled now => .receipt <$> (g.submit r cancelled now).run
  | .poll channelId taskId cancelled now => .task <$> (g.poll channelId taskId cancelled now).run
  | .pass timeout cancelled now => (fun _ => .nothing) <$> g.pollPass timeout cancelled now
  | .expire asOf timeout now => .expired <$> (Gateway.expire asOf timeout now).run
  | .document taskId => .document <$> (g.document taskId).run
  | .content taskId => .content <$> (g.content taskId).run
  | .setRules rules => (fun _ => .nothing) <$> Program.effect (.setPriceRules rules)

end Gateway

/-- The result of a program that has come to its end. -/
def Program.result? {α : Type} : Program α → Option α
  | .done a => some a
  | .perform _ _ => none

/-- What was begun, in order, as far as it has come, and the world in which it
happens. -/
structure Session (σ : Type) where
  programs : List (Program Gateway.Answer)
  world : World σ

namespace Session

variable {σ : Type} (g : Gateway) (env : Surroundings σ)

/-- One step of a history. -/
inductive Turn where
  | start (job : Gateway.Job)
  /-- The next effect of what was begun as number `i`. -/
  | act (i : Nat)

def opened (w : World σ) : Session σ :=
  ⟨[], w⟩

def turn (s : Session σ) : Turn → Session σ
  | .start job => { s with programs := s.programs ++ [job.program g] }
  | .act i =>
    match s.programs[i]? with
    | some (.perform e next) =>
      let (answer, world) := e.perform env s.world
      ⟨s.programs.set i (next answer), world⟩
    | _ => s

def after (s : Session σ) (history : List Turn) : Session σ :=
  history.foldl (turn g env) s

/-- The answers so far to what was begun. -/
def answers (s : Session σ) : List (Option Gateway.Answer) :=
  s.programs.map Program.result?

variable {g env} {s : Session σ}

theorem after_cons (step : Turn) (history : List Turn) :
    s.after g env (step :: history) = (s.turn g env step).after g env history := rfl

theorem after_append (history later : List Turn) :
    s.after g env (history ++ later) = (s.after g env history).after g env later :=
  List.foldl_append

theorem turn_act (first last : List (Program Gateway.Answer)) {e : Effect}
    {next : e.Answer → Program Gateway.Answer} {w : World σ} :
    (⟨first ++ .perform e next :: last, w⟩ : Session σ).turn g env (.act first.length) =
      ⟨first ++ next (e.perform env w).1 :: last, (e.perform env w).2⟩ := by
  simp [turn]

theorem after_starts (s : Session σ) (jobs : List Gateway.Job) :
    s.after g env (jobs.map .start) =
      { s with programs := s.programs ++ jobs.map (·.program g) } := by
  induction jobs generalizing s with
  | nil => simp [after]
  | cons job jobs ih =>
    rw [List.map_cons, after_cons, ih]
    simp [turn]

theorem exists_act_to_end (before : List (Program Gateway.Answer)) (p : Program Gateway.Answer)
    (w : World σ) : ∃ history, (⟨before ++ [p], w⟩ : Session σ).after g env history =
      ⟨before ++ [.done (p.run env w).1], (p.run env w).2⟩ := by
  induction p generalizing w with
  | done a => exact ⟨[], rfl⟩
  | perform e next ih =>
    obtain ⟨history, hend⟩ := ih (e.perform env w).1 (e.perform env w).2
    exact ⟨.act before.length :: history, by rw [after_cons, turn_act, hend, Program.run_perform]⟩

/-- Something may be done from its beginning to its end before anything else
happens. -/
theorem exists_do_at_once (s : Session σ) (job : Gateway.Job) :
    ∃ history, s.after g env (.start job :: history) =
      ⟨s.programs ++ [.done ((job.program g).run env s.world).1],
        ((job.program g).run env s.world).2⟩ :=
  exists_act_to_end s.programs (job.program g) s.world

/-- Programs that were begun one after the other may act in any order of their effects. -/
theorem exists_of_interleaves {α : Type} {ps : List (Program α)} {w w' : World σ}
    (h : Program.Interleaves env ps w w') (f : α → Gateway.Answer)
    (before : List (Program Gateway.Answer)) : ∃ history,
      ((⟨before ++ ps.map (f <$> ·), w⟩ : Session σ).after g env history).world = w' := by
  induction h with
  | finished => exact ⟨[], rfl⟩
  | step first last _ ih =>
    obtain ⟨history, hend⟩ := ih
    refine ⟨.act (before ++ first.map (f <$> ·)).length :: history, ?_⟩
    rw [List.map_append, List.map_cons, ← List.append_assoc] at hend ⊢
    rw [after_cons, ← hend]
    exact congrArg (fun s => (s.after g env history).world) (turn_act ..)

theorem exists_of_run {α : Type} (s : Session σ) (job : Gateway.Job) {f : α → Gateway.Answer}
    {p : Program α} (hjob : job.program g = f <$> p) :
    ∃ history, (s.after g env history).world = (p.run env s.world).2 := by
  obtain ⟨history, hend⟩ := exists_do_at_once s job
  refine ⟨_, (congrArg world hend).trans ?_⟩
  rw [hjob, Program.run_map]

theorem exists_of_step {w' : World σ} (s : Session σ) (h : g.Step env s.world w') :
    ∃ history, (s.after g env history).world = w' := by
  cases h with
  | request r cancelled now => exact exists_of_run s (.request r cancelled now) rfl
  | submit r cancelled now => exact exists_of_run s (.submit r cancelled now) rfl
  | poll c id cancelled now => exact exists_of_run s (.poll c id cancelled now) rfl
  | @pass timeout now cancelled clock w₁ _ hexpired hpolls =>
    obtain ⟨first, hfirst⟩ := exists_of_run s (g := g) (.expire now timeout now) rfl
    let polls := w₁.tasks.unfinished.map fun t =>
      Gateway.Job.poll t.channelId t.id (cancelled t) (clock t)
    obtain ⟨last, hlast⟩ :=
      exists_of_interleaves (g := g) hpolls .task (s.after g env first).programs
    refine ⟨first ++ polls.map .start ++ last, ?_⟩
    rw [after_append, after_append, after_starts, hfirst, hexpired, ← hlast]
    simp [polls, Gateway.polls, Function.comp_def, Gateway.Job.program]
  | expire asOf timeout now => exact exists_of_run s (.expire asOf timeout now) rfl
  | document id => exact exists_of_run s (.document id) rfl
  | content id => exact exists_of_run s (.content id) rfl
  | setRules rules =>
    obtain ⟨history, hend⟩ := exists_do_at_once s (.setRules rules)
    exact ⟨_, congrArg world hend⟩

/-- Every run is among the histories. -/
theorem exists_of_reaches {w w' : World σ} (h : g.Reaches env w w') :
    ∃ history, ((opened w).after g env history).world = w' := by
  induction h with
  | refl => exact ⟨[], rfl⟩
  | tail _ hstep ih =>
    obtain ⟨history, rfl⟩ := ih
    obtain ⟨later, hlater⟩ := exists_of_step _ hstep
    exact ⟨history ++ later, by rw [after_append, hlater]⟩

end Session

end VideoGateway

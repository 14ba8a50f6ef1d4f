import GuildSandbox.Proofs.Capability.Truthful
import GuildSandbox.Proofs.Script.History

/-!
An instance runs once.

The outcome of a run is taken from what stopped the script and from the account, which could tell
different stories. They do not: whatever comes out of a script as the failure of a cancelled run was
a failure of the host, and the run is cancelled.
-/

set_option autoImplicit false
set_option relaxedAutoImplicit false

namespace GuildSandbox

open Host (Truthful)

namespace Script

private theorem Interruption.toRunError_leaveFunction (i : Interruption) :
    i.leaveFunction.toRunError = i.toRunError := by
  unfold leaveFunction
  split <;> rfl

namespace Eval

variable {α β : Type} {inv : Invocation}

/-- An interruption that comes out as the failure of a cancelled run leaves a run that is cancelled. -/
def HonestHalt (result : Except Halt α) (left : Machine) : Prop :=
  ∀ i reason, result = .error (.interrupted i) → i.toRunError = .cancelled reason →
    ∃ first, left.world.account.cancelled = some first

/-- The computation is honest, and all it does to the world is what events do: a run that has been
cancelled stays so. -/
structure Honest (inv : Invocation) (e : Eval α) : Prop where
  history : IsHistory inv e
  halt : ∀ m, HonestHalt (e.runOn m).1 (e.runOn m).2

private theorem honestHalt_ok (a : α) (left : Machine) : HonestHalt (.ok a) left := by
  intro i reason halted
  cases halted

private theorem IsHistory.cancelled {e : Eval α} (history : IsHistory inv e) {m : Machine}
    (cancelled : ∃ first, m.world.account.cancelled = some first) :
    ∃ first, (e.runOn m).2.world.account.cancelled = some first := by
  obtain ⟨first, recorded⟩ := cancelled
  obtain ⟨events, here⟩ := history m
  rw [here]
  exact ⟨first, (World.after_of_cancelled recorded inv events).2⟩

private theorem honest_of_isLocal {e : Eval α} (kept : IsLocal e) : Honest inv e where
  history := (inherited_isHistory inv).ofLocal kept
  halt m i reason halted related := absurd related (kept.own m _ halted i reason rfl)

private theorem Honest.bind {e : Eval α} {next : α → Eval β} (first : Honest inv e)
    (rest : ∀ a, Honest inv (next a)) : Honest inv (e >>= next) where
  history := first.history.bind fun a => (rest a).history
  halt m := by
    have here := first.halt m
    rw [runOn_bind]
    rcases outcome : e.runOn m with ⟨h | a, left⟩
    · rw [outcome] at here
      intro i reason halted related
      cases halted
      exact here i reason rfl related
    · exact (rest a).halt left

private theorem honest_tick : Honest inv tick where
  history := isHistory_tick
  halt m i reason halted related := by
    rw [runOn_tick] at halted
    simp only at halted
    split at halted
    · cases halted
      cases related
    · cases halted

private theorem honest_host {action : Host Value} (history : IsHistory inv (host action))
    (truthful : Truthful action) : Honest inv (host action) where
  history := history
  halt m i reason halted related := by
    have comes := truthful m.world
    rw [runOn_host] at halted
    rw [world_host]
    cases result : (action.run m.world).1 with
    | ok v => rw [result] at halted; cases halted
    | error e =>
      rw [result] at halted
      cases halted
      obtain rfl : e = .cancelled reason := related
      exact comes reason result

private theorem Honest.asFunction {body : Eval Value} (honest : Honest inv body)
    (scope : List Binding) :
    Honest inv (asFunction scope body) where
  history := honest.history.asFunction scope
  halt m := by
    have here := honest.halt { m with scope := scope }
    rw [runOn_asFunction]
    rcases outcome : body.runOn { m with scope := scope } with ⟨(i | _ | _ | _ | _) | _, left⟩
    all_goals rw [outcome] at here
    case error.interrupted =>
      intro j reason halted related
      cases halted
      exact here i reason rfl (i.toRunError_leaveFunction.symm.trans related)
    all_goals
      intro j reason halted
      cases halted

private theorem Honest.attempt {body : Eval Unit} {handler : Value → Eval Unit}
    (honest : Honest inv body)
    (handled : ∀ v, Honest inv (handler v)) : Honest inv (attempt body handler) where
  history := honest.history.attempt fun v => (handled v).history
  halt m := by
    have here := honest.halt m
    rw [runOn_attempt]
    rcases outcome : body.runOn m with ⟨(i | _ | _ | _ | _) | a, left⟩
    all_goals rw [outcome] at here
    · cases catchable : i.isCatchable with
      | false => simpa [catchable] using here
      | true =>
        have there := (handled (caughtValue i)).halt (left.recovered (.handler i))
        have still := (handled (caughtValue i)).history.cancelled (m := left.recovered (.handler i))
        simp only [catchable, if_true]
        rcases outcome : (handler (caughtValue i)).runOn (left.recovered (.handler i)) with ⟨h | _, after⟩
        · rw [outcome] at there still
          intro j reason halted related
          change Except.error (rethrown i h) = _ at halted
          rcases rethrown_cases i h with again | own
          · -- What is thrown again is what was caught, and a run that was cancelled then still is.
            rw [again] at halted
            cases halted
            exact still (here i reason rfl related)
          · rw [own] at halted
            cases halted
            exact there j reason rfl related
        · exact honestHalt_ok _ _
    all_goals exact here

private theorem Honest.discarding {e : Eval α} (honest : Honest inv e) :
    Honest inv (discarding e) where
  history := honest.history.discarding
  halt m := by
    rw [runOn_discarding]
    rcases e.runOn m with ⟨_ | _, left⟩
    · exact honestHalt_ok _ _
    · exact honestHalt_ok _ _

private theorem Honest.ifMissing {e next : Eval α} (name : String) (honest : Honest inv e)
    (rest : Honest inv next) : Honest inv (ifMissing name e next) where
  history := honest.history.ifMissing name rest.history
  halt m := by
    have here := honest.halt m
    rw [runOn_ifMissing]
    rcases outcome : e.runOn m with ⟨h | a, left⟩
    all_goals rw [outcome] at here
    · cases missing : isMissing name h with
      | false => simpa [missing] using here
      | true => simpa [missing] using rest.halt left
    · exact here

private theorem Honest.throughCall {e : Eval α} (honest : Honest inv e) :
    Honest inv (throughCall e) where
  history := honest.history.throughCall
  halt m := by
    have here := honest.halt m
    rw [runOn_throughCall]
    rcases outcome : e.runOn m with ⟨(i | _ | _ | _ | _) | a, left⟩
    all_goals rw [outcome] at here
    · intro j reason halted related
      cases halted
      exact here i reason rfl related
    all_goals exact here

private theorem Honest.turn {body : Eval Unit} {next : Eval Value} (honest : Honest inv body)
    (rest : Honest inv next) : Honest inv (turn body next) where
  history := honest.history.turn rest.history
  halt m := by
    have here := honest.halt m
    rw [runOn_turn]
    rcases outcome : body.runOn m with ⟨(i | v | _ | v | _) | _, left⟩
    all_goals rw [outcome] at here
    case error.continued | ok => exact rest.halt left
    case error.interrupted =>
      intro j reason halted related
      cases halted
      exact here i reason rfl related
    all_goals
      intro j reason halted
      cases halted

private theorem inherited_honest (inv : Invocation) :
    Inherited inv.capabilities fun _ e => Honest inv e where
  ofLocal := honest_of_isLocal
  bind := Honest.bind
  tick := honest_tick
  call := by
    intro name args action offered
    have history := isHistory_call offered
    simp only [Invocation.capabilities] at offered
    split at offered
    next view rest =>
      obtain ⟨c, method, rfl⟩ := Option.map_eq_some_iff.1 offered
      exact honest_host history
        (c.truthful_perform (view.isUnrelated_method? name rest c method) inv)
    next => cases offered
  property := by
    intro view name action offered
    have history := isHistory_property offered
    obtain ⟨result, found, rfl⟩ := Option.map_eq_some_iff.1 offered
    exact honest_host history (Host.truthful_ofExcept (View.unrelated_property? found))
  enclosed honest := ⟨(inherited_isHistory inv).enclosed honest.history, fun m => honest.halt m⟩
  asFunction scope := fun honest => honest.asFunction scope
  attempt := Honest.attempt
  discarding := Honest.discarding
  ifMissing name := fun e next => e.ifMissing name next
  throughCall := Honest.throughCall
  turn := Honest.turn

end Eval

private theorem Program.cancelled_of_run (p : Program) (limits : Limits) (inv : Invocation)
    (m : Machine)
    {i : Interruption} {reason : CancelReason}
    (stopped : (p.run limits inv.capabilities m).1 = .error i)
    (related : i.toRunError = .cancelled reason) :
    ∃ first, (p.run limits inv.capabilities m).2.world.account.cancelled = some first := by
  have honest : Eval.Honest inv (Stmt.runAll (p.environment limits inv.capabilities) p.body) :=
    p.body_inherits (Eval.inherited_honest inv)
  have here := honest.halt m
  rw [run_snd]
  unfold run at stopped
  rcases outcome : Eval.runOn _ m with ⟨(j | _ | _ | _ | _) | _, left⟩
  all_goals rw [outcome] at stopped here
  case error.interrupted =>
    cases stopped
    exact here i reason rfl related
  all_goals cases stopped

end Script

namespace CompiledScript

variable (script : CompiledScript) (inv : Invocation) (surface : Surface) (w : World)

def evaluate : Except Script.Interruption Unit :=
  (script.program.run script.limits inv.capabilities
    { scope := surface.bindings, world := { w with account := w.account.begin w.clock } }).1

private theorem execute_fst : (script.execute inv.capabilities surface w).1 =
    outcomeOf (script.execute inv.capabilities surface w).2.account
      (script.evaluate inv surface w) := rfl

private theorem cancelled_execute :
    (script.execute inv.capabilities surface w).2.account.cancelled =
    (script.program.run script.limits inv.capabilities
      { scope := surface.bindings
        world := { w with account := w.account.begin w.clock } }).2.world.account.cancelled := rfl

private theorem outcomeOf_eq_cancelled {a : Account} {i : Script.Interruption}
    {reason : CancelReason}
    (h : outcomeOf a (.error i) = .cancelled reason) :
    a.cancelled = some reason ∨ a.cancelled = none ∧ i.toRunError = .cancelled reason := by
  unfold outcomeOf at h
  cases late : a.cancelled with
  | some first =>
    simp only [late] at h
    cases h
    exact .inl rfl
  | none =>
    simp only [late] at h
    cases failure : i.toRunError with
    | cancelled other =>
      rw [failure] at h
      cases h
      exact .inr ⟨rfl, rfl⟩
    | _ => rw [failure] at h; cases h

private theorem eq_ok_of_outcomeOf {a : Account} {stopped : Except Script.Interruption Unit}
    (h : outcomeOf a stopped = .completed) : stopped = .ok () := by
  cases stopped with
  | ok done => rfl
  | error i =>
    unfold outcomeOf at h
    cases late : a.cancelled with
    | some reason => simp [late] at h
    | none =>
      simp only [late] at h
      cases failure : i.toRunError <;> rw [failure] at h <;> cases h

private theorem cancelled_of_execute {reason : CancelReason}
    (cancelled : (script.execute inv.capabilities surface w).1 = .cancelled reason) :
    (script.execute inv.capabilities surface w).2.account.cancelled = some reason := by
  rw [execute_fst] at cancelled
  cases stopped : script.evaluate inv surface w with
  | ok done => rw [stopped] at cancelled; cases cancelled
  | error i =>
    rw [stopped] at cancelled
    obtain recorded | ⟨active, related⟩ := outcomeOf_eq_cancelled cancelled
    · exact recorded
    · obtain ⟨first, late⟩ :=
        script.program.cancelled_of_run script.limits inv _ stopped related
      rw [cancelled_execute, late] at active
      cases active

end CompiledScript

namespace InstanceState

private theorem ofOutcome_spec (outcome : Outcome) :
    ofOutcome outcome ≠ .ready ∧
      (ofOutcome outcome = .completed ↔ outcome = .completed) ∧
      (ofOutcome outcome = .cancelled ↔ ∃ reason, outcome = .cancelled reason) ∧
      (ofOutcome outcome = .runtimeError ↔
        outcome ≠ .completed ∧ ∀ reason, outcome ≠ .cancelled reason) := by
  cases outcome <;> simp [ofOutcome]

end InstanceState

/-- What becomes of an instance: it is run, or the world changes without it. -/
inductive Occurrence where
  | run (inv : Invocation) (surface : Surface)
  | meanwhile (change : World → World)

/-- An instance with its world, and the reports of its runs, the oldest first. -/
structure Tenure where
  inst : Instance
  world : World
  reports : List RunReport := []

namespace Tenure

def step (t : Tenure) : Occurrence → Tenure
  | .run inv surface =>
    let (report, inst, world) := t.inst.run inv surface t.world
    { inst := inst, world := world, reports := t.reports ++ [report] }
  | .meanwhile change => { t with world := change t.world }

def after (t : Tenure) (occurrences : List Occurrence) : Tenure := occurrences.foldl step t

/-- The world after all that happens to it without the instance. -/
def meanwhile (w : World) : List Occurrence → World
  | [] => w
  | .run _ _ :: later => meanwhile w later
  | .meanwhile change :: later => meanwhile (change w) later

def runs : List Occurrence → Nat
  | [] => 0
  | .run _ _ :: later => runs later + 1
  | .meanwhile _ :: later => runs later

private theorem step_run_of_spent {t : Tenure} (spent : t.inst.state ≠ .ready) (inv : Invocation)
    (surface : Surface) : t.step (.run inv surface) =
      { t with reports := t.reports ++
        [.of t.inst.script.id (.runtimeError Instance.spent) t.world] } := by
  obtain ⟨⟨script, state⟩, world, reports⟩ := t
  cases state with
  | ready => exact absurd rfl spent
  | completed | cancelled | runtimeError => rfl

private theorem after_of_spent {t : Tenure} (spent : t.inst.state ≠ .ready)
    (later : List Occurrence) :
    (t.after later).inst = t.inst ∧ (t.after later).world = meanwhile t.world later ∧
      ∃ refusals, (t.after later).reports = t.reports ++ refusals ∧
        refusals.length = runs later ∧ ∀ r ∈ refusals, r.outcome = .runtimeError Instance.spent := by
  induction later generalizing t with
  | nil => exact ⟨rfl, rfl, [], by simp [after], rfl, by simp⟩
  | cons head later ih =>
    cases head with
    | meanwhile change => exact ih (t := t.step (.meanwhile change)) spent
    | run inv surface =>
      change ((t.step (.run inv surface)).after later).inst = _ ∧
        ((t.step (.run inv surface)).after later).world = _ ∧
          ∃ refusals, ((t.step (.run inv surface)).after later).reports = _ ∧ _
      rw [step_run_of_spent spent inv surface]
      obtain ⟨inst, world, refusals, reports, count, each⟩ := ih (t := { t with reports := t.reports ++
        [.of t.inst.script.id (.runtimeError Instance.spent) t.world] }) spent
      refine ⟨inst, world, _ :: refusals, reports.trans (List.append_assoc _ _ _), ?_, ?_⟩
      · rw [List.length_cons, count, runs]
      · exact List.forall_mem_cons.2 ⟨rfl, each⟩

private theorem after_idle (t : Tenure) (idle : List (World → World)) :
    t.after (idle.map .meanwhile) =
      { t with world := idle.foldl (fun w change => change w) t.world } := by
  induction idle generalizing t with
  | nil => rfl
  | cons change rest ih => exact ih (t.step (.meanwhile change))

end Tenure

/-- What holds of an instance after its first run, stopped by `stopped` and with the outcome and the
world `done`, and all that follows. -/
structure RunsOnce (script : CompiledScript) (stopped : Except Script.Interruption Unit)
    (done : Outcome × World) (later : List Occurrence) (t : Tenure) : Prop where
  /-- The script is evaluated by the first run alone: no other has a part in the world. -/
  evaluated : t.world = Tenure.meanwhile done.2 later
  /-- Every later run is refused. -/
  refused : ∃ refusals, t.reports = .of script.id done.1 done.2 :: refusals ∧
    refusals.length = Tenure.runs later ∧ ∀ r ∈ refusals, r.outcome =
      .runtimeError (.invalidArgument "script instance can only run once")
  /-- The instance stands where its first run left it. -/
  settled : t.inst = { script := script, state := .ofOutcome done.1 }
  terminal : t.inst.state ≠ .ready
  completed : t.inst.state = .completed ↔ done.1 = .completed
  cancelled : t.inst.state = .cancelled ↔ ∃ reason, done.1 = .cancelled reason
  runtimeError : t.inst.state = .runtimeError ↔
    done.1 ≠ .completed ∧ ∀ reason, done.1 ≠ .cancelled reason
  /-- The reason that is reported is the one on the account. -/
  reason : ∀ reason, done.1 = .cancelled reason → done.2.account.cancelled = some reason
  /-- Whatever stopped the script, the cancellation of its run is what is reported. -/
  reported : ∀ i reason, stopped = .error i → done.2.account.cancelled = some reason →
    done.1 = .cancelled reason
  /-- A script that comes to its end completes its run. -/
  ended : stopped = .ok () ↔ done.1 = .completed

/-- An instance runs once, and its report agrees with its state, whatever happens to the world before
its first run and between later ones. -/
theorem Instance.runs_once (script : CompiledScript) (w : World) (idle : List (World → World))
    (inv : Invocation) (surface : Surface) (later : List Occurrence) :
    let begun := idle.foldl (fun w change => change w) w
    RunsOnce script (script.evaluate inv surface begun)
      (script.execute inv.capabilities surface begun) later
      (Tenure.after { inst := { script := script }, world := w }
        (idle.map .meanwhile ++ .run inv surface :: later)) := by
  intro begun
  have outcome := script.execute_fst inv surface begun
  have late := @CompiledScript.cancelled_of_execute script inv surface begun
  have first : (Tenure.after { inst := { script := script }, world := w }
      (idle.map .meanwhile)).step (.run inv surface) =
        { inst := { script := script
                    state := .ofOutcome (script.execute inv.capabilities surface begun).1 }
          world := (script.execute inv.capabilities surface begun).2
          reports := [.of script.id (script.execute inv.capabilities surface begun).1
            (script.execute inv.capabilities surface begun).2] } := by
    rw [Tenure.after_idle]
    rfl
  have ran : Tenure.after { inst := { script := script }, world := w }
      (idle.map .meanwhile ++ .run inv surface :: later) =
        ((Tenure.after { inst := { script := script }, world := w }
          (idle.map .meanwhile)).step (.run inv surface)).after later := by
    rw [Tenure.after, List.foldl_append]
    rfl
  rw [ran, first]
  generalize script.evaluate inv surface begun = stopped at outcome
  generalize script.execute inv.capabilities surface begun = done at outcome late
  obtain ⟨terminal, completed, cancelled, runtimeError⟩ := InstanceState.ofOutcome_spec done.1
  obtain ⟨inst, world, refusals, reports, count, each⟩ := Tenure.after_of_spent
    (t := { inst := { script := script, state := .ofOutcome done.1 }, world := done.2
            reports := [.of script.id done.1 done.2] }) terminal later
  exact {
    evaluated := world
    refused := ⟨refusals, reports, count, each⟩
    settled := inst
    terminal := by rw [inst]; exact terminal
    completed := by rw [inst]; exact completed
    cancelled := by rw [inst]; exact cancelled
    runtimeError := by rw [inst]; exact runtimeError
    reason := fun _ => late
    reported := by
      rintro i reason rfl recorded
      rw [outcome, CompiledScript.outcomeOf, recorded]
    ended := by
      constructor
      · rintro rfl
        exact outcome
      · intro ends
        rw [outcome] at ends
        exact CompiledScript.eq_ok_of_outcomeOf ends }

/-- A script that answers and then shelters a long loop with handlers. -/
def endlessSource : Source where
  id := "endless"
  text := "ctx.respond(`hi`); for i in 0..1000 \x7b try \x7b throw i; \x7d catch \x7b kv; \x7d \x7d"

def scantWorld : World := { freshWorld with account := .new { maxSteps := 9 } 0 }

theorem endlessSource_runs_once :
    let script := (endlessSource.compile {}).toOption.getD default
    let surface := Surface.standard plainInvocation {}
    let again : Occurrence := .run plainInvocation surface
    let renewed : Occurrence := .meanwhile fun w => { w with account := .new {} 0 }
    let t := Tenure.after { inst := { script := script }, world := scantWorld }
      (([] : List (World → World)).map .meanwhile ++ again :: [again, renewed, again])
    (endlessSource.compile {}).isOk = true ∧ t.inst.state = .cancelled ∧
      t.world.rest.calls.length = 1 ∧ t.world.account.cancelled = none := by
  intro script surface again renewed t
  have facts : (endlessSource.compile {}).isOk = true ∧
      (script.execute plainInvocation.capabilities surface scantWorld).1 = .cancelled .stepLimit ∧
      (script.execute plainInvocation.capabilities surface scantWorld).2.rest.calls.length = 1 := by
    decide +kernel
  obtain ⟨compiles, stopped, answered⟩ := facts
  have once : RunsOnce script (script.evaluate plainInvocation surface scantWorld)
      (script.execute plainInvocation.capabilities surface scantWorld) [again, renewed, again] t :=
    Instance.runs_once script scantWorld [] plainInvocation surface [again, renewed, again]
  clear_value t script
  refine ⟨compiles, once.cancelled.2 ⟨.stepLimit, stopped⟩, ?_, ?_⟩
  · rw [once.evaluated]
    exact answered
  · rw [once.evaluated]
    rfl

end GuildSandbox

import GuildSandbox.Proofs.Capability.Session
import GuildSandbox.Proofs.Script.HostFailure

/-!
Every run of a script is a history.

To its host a script is a list of events: it calls methods of views, time passes, and steps are
counted. Whatever the script does with variables, loops, functions and handlers in between, the world
that it leaves is the one that its events lead to, however it ends.
-/

set_option autoImplicit false
set_option relaxedAutoImplicit false

namespace GuildSandbox

private theorem StepMeter.account_onOperation (m : StepMeter) (operations : Nat) (a : Account)
    (now : Nat) :
    (m.onOperation operations a now).2.2 = a ∨
      ∃ steps, (m.onOperation operations a now).2.2 = (a.onStep steps now).2 := by
  unfold onOperation
  split
  · exact .inr ⟨_, rfl⟩
  · exact .inl rfl

namespace Script

namespace Eval

variable {α β : Type} {inv : Invocation}

def IsHistory (inv : Invocation) (e : Eval α) : Prop :=
  ∀ m, ∃ events, (e.runOn m).2.world = m.world.after inv events

private theorem isHistory_of_world {e : Eval α} (same : ∀ m, (e.runOn m).2.world = m.world) :
    IsHistory inv e := fun m => ⟨[], same m⟩

theorem IsHistory.bind {e : Eval α} {next : α → Eval β} (first : IsHistory inv e)
    (rest : ∀ a, IsHistory inv (next a)) : IsHistory inv (e >>= next) := by
  intro m
  obtain ⟨before, here⟩ := first m
  rw [runOn_bind]
  rcases outcome : e.runOn m with ⟨_ | a, left⟩
  all_goals rw [outcome] at here
  · exact ⟨before, here⟩
  · obtain ⟨later, there⟩ := rest a left
    exact ⟨before ++ later, by rw [there, here, World.after_append]⟩

/-- Time passes with every operation, and at every tenth one the account counts steps. -/
theorem isHistory_tick : IsHistory inv tick := by
  intro m
  have ticked : (tick.runOn m).2.world = { m.world.elapse operationNanos with
      account := (m.meter.onOperation (m.meter.seen + 1)
        (m.world.elapse operationNanos).account (m.world.elapse operationNanos).clock).2.2 } := by
    have ran := runOn_tick m
    generalize m.meter.onOperation (m.meter.seen + 1) (m.world.elapse operationNanos).account
      (m.world.elapse operationNanos).clock = checked at ran ⊢
    obtain ⟨reason, meter, account⟩ := checked
    exact congrArg (fun outcome => outcome.2.world) ran
  rw [ticked]
  obtain same | ⟨steps, counted⟩ := m.meter.account_onOperation (m.meter.seen + 1)
    (m.world.elapse operationNanos).account (m.world.elapse operationNanos).clock
  · exact ⟨[.elapse operationNanos], by rw [same]; rfl⟩
  · exact ⟨[.elapse operationNanos, .steps steps], by rw [counted]; rfl⟩

theorem world_host (action : Host Value) (m : Machine) :
    ((host action).runOn m).2.world = (action.run m.world).2 := by
  rw [runOn_host]
  cases (action.run m.world).1 with
  | ok v => rfl
  | error e => rfl

theorem isHistory_call {name : String} {args : List Value} {action : Host Value}
    (offered : inv.capabilities.function? name args = some action) :
    IsHistory inv (host action) := by
  intro m
  rw [world_host]
  simp only [Invocation.capabilities] at offered
  split at offered
  next view rest =>
    obtain ⟨c, method, rfl⟩ := Option.map_eq_some_iff.1 offered
    refine ⟨[.call view name rest], ?_⟩
    simp only [World.after, List.foldl_cons, List.foldl_nil, World.step, method]
  next => cases offered

theorem isHistory_property {view : View} {name : String} {action : Host Value}
    (offered : inv.capabilities.property? view name = some action) :
    IsHistory inv (host action) := by
  obtain ⟨result, -, rfl⟩ := Option.map_eq_some_iff.1 offered
  refine isHistory_of_world fun m => ?_
  rw [world_host, Host.run_ofExcept]

theorem IsHistory.asFunction {body : Eval Value} (history : IsHistory inv body)
    (scope : List Binding) : IsHistory inv (asFunction scope body) := by
  intro m
  rw [runOn_asFunction]
  exact history { m with scope := scope }

theorem IsHistory.attempt {body : Eval Unit} {handler : Value → Eval Unit}
    (history : IsHistory inv body) (handled : ∀ v, IsHistory inv (handler v)) :
    IsHistory inv (attempt body handler) := by
  intro m
  obtain ⟨before, here⟩ := history m
  rw [runOn_attempt]
  rcases outcome : body.runOn m with ⟨(i | _ | _ | _ | _) | a, left⟩
  all_goals rw [outcome] at here
  · cases catchable : i.isCatchable with
    | true =>
      obtain ⟨later, there⟩ := handled (caughtValue i) (left.recovered (.handler i))
      refine ⟨before ++ later, ?_⟩
      simp only [catchable, if_true]
      rcases outcome : (handler (caughtValue i)).runOn (left.recovered (.handler i)) with ⟨h | _, after⟩
      all_goals
        rw [outcome] at there
        calc after.world = left.world.after inv later := there
          _ = m.world.after inv (before ++ later) := by rw [World.after_append, ← here]
    | false => exact ⟨before, by simpa [catchable] using here⟩
  all_goals exact ⟨before, here⟩

theorem IsHistory.discarding {e : Eval α} (history : IsHistory inv e) :
    IsHistory inv (discarding e) := by
  intro m
  obtain ⟨events, here⟩ := history m
  refine ⟨events, ?_⟩
  rw [runOn_discarding]
  rcases outcome : e.runOn m with ⟨_ | _, left⟩
  all_goals
    rw [outcome] at here
    exact here

theorem IsHistory.ifMissing {e next : Eval α} (name : String) (history : IsHistory inv e)
    (rest : IsHistory inv next) : IsHistory inv (ifMissing name e next) := by
  intro m
  obtain ⟨before, here⟩ := history m
  rw [runOn_ifMissing]
  rcases outcome : e.runOn m with ⟨h | a, left⟩
  all_goals rw [outcome] at here
  · cases missing : isMissing name h with
    | false => exact ⟨before, by simpa [missing] using here⟩
    | true =>
      obtain ⟨later, there⟩ := rest left
      refine ⟨before ++ later, ?_⟩
      simp only [missing, if_true]
      rw [there, here, World.after_append]
  · exact ⟨before, here⟩

theorem IsHistory.throughCall {e : Eval α} (history : IsHistory inv e) :
    IsHistory inv (throughCall e) := by
  intro m
  obtain ⟨events, here⟩ := history m
  refine ⟨events, ?_⟩
  rw [runOn_throughCall]
  rcases outcome : e.runOn m with ⟨(_ | _ | _ | _ | _) | _, left⟩
  all_goals
    rw [outcome] at here
    exact here

theorem IsHistory.turn {body : Eval Unit} {next : Eval Value} (history : IsHistory inv body)
    (rest : IsHistory inv next) : IsHistory inv (turn body next) := by
  intro m
  obtain ⟨before, here⟩ := history m
  rw [runOn_turn]
  rcases outcome : body.runOn m with ⟨(i | v | _ | v | _) | _, left⟩
  all_goals
    rw [outcome] at here
    obtain ⟨later, there⟩ := rest left
    rw [here, ← World.after_append] at there
  case error.continued | ok => exact ⟨before ++ later, there⟩
  all_goals exact ⟨before, here⟩

theorem inherited_isHistory (inv : Invocation) :
    Inherited inv.capabilities fun _ e => IsHistory inv e where
  ofLocal kept := isHistory_of_world fun m => by
    obtain ⟨scope, cells, same⟩ := kept.others m
    rw [same]
  bind := IsHistory.bind
  tick := isHistory_tick
  call := isHistory_call
  property := isHistory_property
  enclosed history m := history m
  asFunction scope := fun history => history.asFunction scope
  attempt := IsHistory.attempt
  discarding := IsHistory.discarding
  ifMissing name := fun e next => e.ifMissing name next
  throughCall := IsHistory.throughCall
  turn := IsHistory.turn

end Eval

end Script

open Script

/-- The world that a run of a script leaves is that of a history that begins with the run, apart from
the steps that are counted at its end. -/
theorem CompiledScript.exists_history (script : CompiledScript) (inv : Invocation)
    (surface : Surface) (w : World) : ∃ events account,
    (script.execute inv.capabilities surface w).2 =
      { ({ w with account := w.account.begin w.clock }).after inv events with
        account := account } := by
  have history : Eval.IsHistory inv (Stmt.runAll
      (script.program.environment script.limits inv.capabilities) script.program.body) :=
    Program.body_inherits (Eval.inherited_isHistory inv) script.program
  obtain ⟨events, led⟩ := history
    { scope := surface.bindings, world := { w with account := w.account.begin w.clock } }
  rw [← Program.run_snd] at led
  refine ⟨events, (script.execute inv.capabilities surface w).2.account, ?_⟩
  rw [← led]
  rfl

end GuildSandbox

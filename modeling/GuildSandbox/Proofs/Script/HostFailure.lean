import GuildSandbox.Proofs.Capability.Cancelled
import GuildSandbox.Proofs.Script.Computation
import GuildSandbox.Run.Instance

/-!
Failures of the host and the end of the run.

Whatever loops, functions and handlers stand around a call to the host that fails, nothing is done
after it, and the failure comes out as it is, with two ways around it: a comparison that fails says
nothing, and what comes out of a call by name can be handled. The invariant is that a computation is
being stopped by no failure of the host, or by one, halts with it, and has not touched the world since.
-/

set_option autoImplicit false
set_option relaxedAutoImplicit false

namespace GuildSandbox

namespace Script

/-- The failure stopped a comparison, or a handler took it as it came out of a call. -/
def Overcome.IsExcused (o : Overcome) : Prop :=
  o.escape = .comparison ∨ ∃ i, o.escape = .handler i ∧ i.core = .ofRunError o.failure.error ∧
    i ≠ .ofRunError o.failure.error

namespace Interruption

private theorem core_leaveFunction (i : Interruption) : i.leaveFunction.core = i.core := by
  unfold leaveFunction
  split <;> rfl

private theorem toRunError_core (i : Interruption) : i.core.toRunError = i.toRunError := by
  induction i with
  | host message cause => rfl
  | fault f => rfl
  | inFunction inner ih => exact ih
  | inModule inner ih => exact ih

private theorem ne_ofRunError_of_isCatchable {i : Interruption} (catchable : i.isCatchable = true)
    (e : RunError) : i ≠ .ofRunError e := by
  rintro rfl
  cases catchable

end Interruption

namespace Eval

variable {α β : Type} {capabilities : Capabilities}

def IsStopped (e : RunError) (result : Except Halt α) : Prop :=
  ∃ i, result = .error (.interrupted i) ∧ i.core = .ofRunError e

/-- A result and the machine left behind: either no failure of the host stops the script, or one does,
it is the result, and the world is as the failure left it. -/
structure HaltedByHost (result : Except Halt α) (left : Machine) : Prop where
  last : left.failures = [] ∨ ∃ e, left.failures = [⟨e, left.world⟩] ∧ IsStopped e result
  excused : ∀ o ∈ left.overcome, o.IsExcused

def StopsAtFailure (e : Eval α) : Prop :=
  ∀ m, m.failures = [] → (∀ o ∈ m.overcome, o.IsExcused) →
    HaltedByHost (e.runOn m).1 (e.runOn m).2

private theorem not_isStopped_ok {e : RunError} {a : α} : ¬ IsStopped e (.ok a) := by
  rintro ⟨i, ⟨⟩, -⟩

private theorem stopsAtFailure_host (action : Host Value) : StopsAtFailure (host action) := by
  intro m clean excused
  rw [runOn_host]
  cases (action.run m.world).1 with
  | ok a => exact ⟨.inl clean, excused⟩
  | error e =>
    refine ⟨.inr ⟨e, ?_, _, rfl, rfl⟩, excused⟩
    change ⟨e, _⟩ :: m.failures = _
    rw [clean]
    rfl

private theorem StopsAtFailure.bind {e : Eval α} {next : α → Eval β} (first : StopsAtFailure e)
    (rest : ∀ a, StopsAtFailure (next a)) : StopsAtFailure (e >>= next) := by
  intro m clean excused
  have halted := first m clean excused
  rw [runOn_bind]
  rcases outcome : e.runOn m with ⟨h | a, left⟩
  all_goals
    rw [outcome] at halted
    obtain ⟨clean | ⟨e, failures, i, stopped, core⟩, excused⟩ := halted
  · exact ⟨.inl clean, excused⟩
  · cases stopped
    exact ⟨.inr ⟨e, failures, i, rfl, core⟩, excused⟩
  · exact rest a left clean excused
  · cases stopped

private theorem stopsAtFailure_tick : StopsAtFailure tick := by
  intro m clean excused
  rw [runOn_tick]
  exact ⟨.inl clean, excused⟩

private theorem StopsAtFailure.asFunction {body : Eval Value} (stops : StopsAtFailure body)
    (scope : List Binding) : StopsAtFailure (asFunction scope body) := by
  intro m clean excused
  have halted := stops { m with scope := scope } clean excused
  rw [runOn_asFunction]
  rcases outcome : body.runOn { m with scope := scope } with ⟨ended, left⟩
  rw [outcome] at halted
  obtain ⟨clean | ⟨e, failures, i, rfl, core⟩, excused⟩ := halted
  · exact ⟨.inl clean, excused⟩
  · exact ⟨.inr ⟨e, failures, _, rfl, i.core_leaveFunction.trans core⟩, excused⟩

private theorem excused_recovered {result : Except Halt α} {left : Machine} {escape : Escape}
    (halted : HaltedByHost result left)
    (rightly : ∀ e, IsStopped e result → Overcome.IsExcused ⟨⟨e, left.world⟩, escape⟩) :
    ∀ o ∈ (left.recovered escape).overcome, o.IsExcused := by
  intro o here
  obtain taken | before := List.mem_append.1 here
  · obtain ⟨failure, pending, rfl⟩ := List.mem_map.1 taken
    obtain clean | ⟨e, failures, stopped⟩ := halted.last
    · rw [clean] at pending
      cases pending
    · rw [failures] at pending
      cases List.mem_singleton.1 pending
      exact rightly e stopped
  · exact halted.excused o before

private theorem StopsAtFailure.attempt {body : Eval Unit} {handler : Value → Eval Unit}
    (stops : StopsAtFailure body) (stopsHandler : ∀ v, StopsAtFailure (handler v)) :
    StopsAtFailure (attempt body handler) := by
  intro m clean excused
  have halted := stops m clean excused
  rw [runOn_attempt]
  rcases outcome : body.runOn m with ⟨(i | _ | _ | _ | _) | a, left⟩
  all_goals rw [outcome] at halted
  · cases catchable : i.isCatchable with
    | false => simpa [catchable] using halted
    | true =>
      have taken : ∀ o ∈ (left.recovered (.handler i)).overcome, o.IsExcused := by
        refine excused_recovered halted fun e stopped => .inr ⟨i, rfl, ?_⟩
        obtain ⟨j, same, core⟩ := stopped
        cases same
        exact ⟨core, Interruption.ne_ofRunError_of_isCatchable catchable e⟩
      have handled := stopsHandler (caughtValue i) (left.recovered (.handler i)) rfl taken
      simp only [catchable, if_true]
      rcases outcome : (handler (caughtValue i)).runOn (left.recovered (.handler i)) with ⟨h | _, after⟩
      all_goals rw [outcome] at handled
      · refine ⟨handled.last.imp_right ?_, handled.excused⟩
        rintro ⟨e, failures, j, stopped, core⟩
        cases stopped
        refine ⟨e, failures, j, ?_, core⟩
        -- A handler that the host stops does not throw again what it handles.
        cases j with
        | fault f => cases core
        | _ => rfl
      · exact handled
  all_goals exact halted

private theorem StopsAtFailure.discarding {e : Eval α} (stops : StopsAtFailure e) :
    StopsAtFailure (discarding e) := by
  intro m clean excused
  have halted := stops m clean excused
  rw [runOn_discarding]
  rcases outcome : e.runOn m with ⟨h | a, left⟩
  all_goals rw [outcome] at halted
  · exact ⟨.inl rfl, excused_recovered halted fun _ _ => .inl rfl⟩
  · exact ⟨.inl (halted.last.resolve_right fun ⟨_, _, stopped⟩ => not_isStopped_ok stopped),
      halted.excused⟩

private theorem StopsAtFailure.ifMissing {e next : Eval α} (name : String)
    (stops : StopsAtFailure e)
    (stopsNext : StopsAtFailure next) : StopsAtFailure (ifMissing name e next) := by
  intro m clean excused
  have halted := stops m clean excused
  rw [runOn_ifMissing]
  rcases outcome : e.runOn m with ⟨h | a, left⟩
  all_goals rw [outcome] at halted
  · cases missing : isMissing name h with
    | false => simpa [missing] using halted
    | true =>
      simp only [missing, if_true]
      obtain ⟨clean | ⟨e, failures, i, stopped, core⟩, excused⟩ := halted
      · exact stopsNext left clean excused
      · cases stopped
        -- What stopped the script is no fault of its own.
        cases i with
        | fault f => cases core
        | _ => cases missing
  · exact halted

private theorem StopsAtFailure.throughCall {e : Eval α} (stops : StopsAtFailure e) :
    StopsAtFailure (throughCall e) := by
  intro m clean excused
  have halted := stops m clean excused
  rw [runOn_throughCall]
  rcases outcome : e.runOn m with ⟨(i | _ | _ | _ | _) | a, left⟩
  all_goals rw [outcome] at halted
  · refine ⟨halted.last.imp_right ?_, halted.excused⟩
    rintro ⟨e, failures, j, stopped, core⟩
    cases stopped
    exact ⟨e, failures, _, rfl, core⟩
  all_goals exact halted

private theorem StopsAtFailure.turn {body : Eval Unit} {next : Eval Value}
    (stops : StopsAtFailure body) (stopsNext : StopsAtFailure next) :
    StopsAtFailure (turn body next) := by
  intro m clean excused
  have halted := stops m clean excused
  rw [runOn_turn]
  rcases outcome : body.runOn m with ⟨(i | v | _ | v | _) | _, left⟩
  all_goals
    rw [outcome] at halted
    obtain ⟨clean | ⟨e, failures, i, stopped, core⟩, excused⟩ := halted
  case error.continued.inl | ok.inl => exact stopsNext left clean excused
  case error.interrupted.inr =>
    cases stopped
    exact ⟨.inr ⟨e, failures, _, rfl, core⟩, excused⟩
  all_goals first | exact ⟨.inl clean, excused⟩ | cases stopped

private theorem inherited_stopsAtFailure : Inherited capabilities fun _ e => StopsAtFailure e where
  ofLocal kept m clean excused := by
    obtain ⟨scope, cells, same⟩ := kept.others m
    rw [same]
    exact ⟨.inl clean, excused⟩
  bind := StopsAtFailure.bind
  tick := stopsAtFailure_tick
  call _ := stopsAtFailure_host _
  property _ := stopsAtFailure_host _
  enclosed body m clean excused :=
    ⟨(body m clean excused).last, (body m clean excused).excused⟩
  asFunction scope := fun body => body.asFunction scope
  attempt := StopsAtFailure.attempt
  discarding := StopsAtFailure.discarding
  ifMissing name := fun e next => e.ifMissing name next
  throughCall := StopsAtFailure.throughCall
  turn := StopsAtFailure.turn

end Eval

end Script

open Script

namespace CompiledScript

variable (script : CompiledScript) (capabilities : Capabilities) (surface : Surface) (w : World)

def machine : Machine :=
  (script.program.run script.limits capabilities
    { scope := surface.bindings, world := { w with account := w.account.begin w.clock } }).2

def failures : List HostFailure :=
  (script.machine capabilities surface w).overcome.map Overcome.failure ++
    (script.machine capabilities surface w).failures

private theorem haltedByHost_run (m : Machine) (clean : m.failures = [])
    (untroubled : m.overcome = []) :
    let done := script.program.run script.limits capabilities m
    (∀ o ∈ done.2.overcome, o.IsExcused) ∧ (done.2.failures = [] ∨ ∃ e i,
      done.2.failures = [⟨e, done.2.world⟩] ∧ done.1 = .error i ∧ i.toRunError = e) := by
  intro done
  have stops : Eval.StopsAtFailure
      (Stmt.runAll (script.program.environment script.limits capabilities) script.program.body) :=
    Program.body_inherits Eval.inherited_stopsAtFailure script.program
  obtain ⟨last, excused⟩ := stops m clean (by rw [untroubled]; exact fun _ => nofun)
  have same : done.2 = (Eval.runOn (Stmt.runAll
      (script.program.environment script.limits capabilities) script.program.body) m).2 :=
    script.program.run_snd script.limits capabilities m
  rw [same]
  refine ⟨excused, last.imp_right ?_⟩
  rintro ⟨e, failures, i, stopped, core⟩
  refine ⟨e, i, failures, ?_, ?_⟩
  · simp only [done, Program.run]
    rcases outcome : Eval.runOn _ m with ⟨result, left⟩
    rw [outcome] at stopped
    cases stopped
    rfl
  · rw [← i.toRunError_core, core]
    rfl

/-- Whatever is built around it in the script, a failure of the host is the last thing that happens: what
the run has done to the outside is what it had done right after the failure, and the outcome is the
cancellation of the run if there is one, and else that of the failure itself. Else it stopped a
comparison, or a handler took it as it came out of a call. -/
theorem execute_of_failure {failure : HostFailure}
    (met : failure ∈ script.failures capabilities surface w) :
    (∃ o ∈ (script.machine capabilities surface w).overcome, o.failure = failure ∧ o.IsExcused) ∨
    (script.machine capabilities surface w).failures = [failure] ∧
      (script.execute capabilities surface w).2.effects = failure.world.effects ∧
      (script.execute capabilities surface w).1 =
        match (script.execute capabilities surface w).2.account.cancelled with
        | some reason => .cancelled reason
        | none => .ofError failure.error := by
  obtain ⟨excused, last⟩ := script.haltedByHost_run capabilities
    { scope := surface.bindings, world := { w with account := w.account.begin w.clock } } rfl rfl
  obtain overcome | pending := List.mem_append.1 met
  · obtain ⟨o, here, rfl⟩ := List.mem_map.1 overcome
    exact .inl ⟨o, here, rfl, excused o here⟩
  · right
    obtain clean | ⟨e, i, failures, stopped, rfl⟩ := last
    · rw [machine, clean] at pending
      cases pending
    · rw [machine, failures] at pending
      cases List.mem_singleton.1 pending
      refine ⟨failures, rfl, ?_⟩
      unfold execute
      simp only
      rw [stopped]
      rfl

end CompiledScript

/-- A script that answers, kicks the member who used it for every item of an array, and shelters this from
failures with a handler in a function, a handler around the call of the function, and a loop around
them. -/
def shelteredSource : Source where
  id := "sheltered"
  text := "fn f(c) \x7b try \x7b c.respond(`a`); [1].for_each(|x| c.member.kick()); \x7d catch \x7b c.respond(`b`); \x7d \x7d
for i in 0..3 \x7b try \x7b f(ctx); \x7d catch \x7b kv.set(`k`, 1); \x7d \x7d"

theorem shelteredSource_fails :
    let script := (shelteredSource.compile {}).toOption.getD default
    let surface := Surface.standard plainInvocation {}
    let done := script.execute plainInvocation.capabilities surface freshWorld
    (shelteredSource.compile {}).isOk = true ∧ done.2.effects.calls.length = 1 ∧
      ∃ failure ∈ script.failures plainInvocation.capabilities surface freshWorld,
        done.2.effects = failure.world.effects ∧
        done.1 = .runtimeError (.permissionDenied "KICK_MEMBERS") := by
  intro script surface done
  have facts : (shelteredSource.compile {}).isOk = true ∧ done.2.effects.calls.length = 1 ∧
      (script.machine plainInvocation.capabilities surface freshWorld).overcome.length = 0 ∧
      (script.failures plainInvocation.capabilities surface freshWorld).map
        HostFailure.error = [.permissionDenied "KICK_MEMBERS"] ∧
      done.2.account.cancelled = none := by decide +kernel
  obtain ⟨compiles, answered, stopped, errors, active⟩ := facts
  obtain ⟨failure, met, error⟩ : ∃ failure ∈
      script.failures plainInvocation.capabilities surface freshWorld,
      failure.error = .permissionDenied "KICK_MEMBERS" := by
    apply List.mem_map.mp
    rw [errors]
    exact List.mem_singleton_self _
  obtain ⟨o, overcome, -, -⟩ | ⟨-, effects, outcome⟩ :=
    script.execute_of_failure plainInvocation.capabilities surface freshWorld met
  · rw [List.length_eq_zero_iff.1 stopped] at overcome
    cases overcome
  · refine ⟨compiles, answered, failure, met, effects, ?_⟩
    rw [outcome, active, error]
    rfl

/-- A script that kicks the member who used it while it puts an array in order, and then answers. -/
def sortingSource : Source where
  id := "sorting"
  text := "let a = [2, 1]; a.sort(|x, y| \x7b ctx.member.kick(); 0 \x7d); ctx.respond(`done`);"

/-- The member may not kick, but the script goes on, answers, and comes to its end. -/
theorem sortingSource_goes_on :
    let script := (sortingSource.compile {}).toOption.getD default
    let surface := Surface.standard plainInvocation {}
    let done := script.execute plainInvocation.capabilities surface freshWorld
    (sortingSource.compile {}).isOk = true ∧ done.1 = .completed ∧
      ∃ failure ∈ script.failures plainInvocation.capabilities surface freshWorld,
        failure.error = .permissionDenied "KICK_MEMBERS" ∧
        done.2.effects ≠ failure.world.effects := by
  intro script surface done
  have facts : (sortingSource.compile {}).isOk = true ∧ done.1 = .completed ∧
      done.2.effects.calls.length = 1 ∧
      (script.failures plainInvocation.capabilities surface freshWorld).map
        (fun f => (f.error, f.world.effects.calls.length)) =
          [(.permissionDenied "KICK_MEMBERS", 0)] := by decide +kernel
  obtain ⟨compiles, completed, answered, failures⟩ := facts
  obtain ⟨failure, met, same⟩ : ∃ failure ∈
      script.failures plainInvocation.capabilities surface freshWorld,
      (failure.error, failure.world.effects.calls.length) =
        (.permissionDenied "KICK_MEMBERS", 0) := by
    apply List.mem_map.mp
    rw [failures]
    exact List.mem_singleton_self _
  obtain ⟨error, silent⟩ := Prod.mk.inj same
  refine ⟨compiles, completed, failure, met, error, fun unchanged => ?_⟩
  rw [unchanged, silent] at answered
  cases answered

end GuildSandbox

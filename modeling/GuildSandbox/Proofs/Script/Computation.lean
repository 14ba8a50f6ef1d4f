import GuildSandbox.Proofs.Script.Evaluation

set_option autoImplicit false
set_option relaxedAutoImplicit false

namespace GuildSandbox.Script

namespace Eval

variable {α β : Type}

theorem runOn_bind (m : Machine) (e : Eval α) (next : α → Eval β) :
    (e >>= next).runOn m = match e.runOn m with
      | (.ok a, left) => (next a).runOn left
      | (.error h, left) => (.error h, left) := by
  have same : e.runOn m = (ExceptT.run e) m := rfl
  change ExceptT.bind e next m = _
  rw [same]
  simp only [ExceptT.bind, ExceptT.mk, Bind.bind, StateT.bind, ExceptT.run]
  rcases e m with ⟨_ | _, left⟩ <;> rfl

theorem runOn_tick (m : Machine) :
    let (reason, meter, account) := m.meter.onOperation (m.meter.seen + 1)
      (m.world.elapse operationNanos).account (m.world.elapse operationNanos).clock
    tick.runOn m = ((match reason with
        | some _ => .error (.interrupted (.fault .terminated))
        | none => .ok ()),
      { m with world := { m.world.elapse operationNanos with account := account }, meter := meter })
    := by
  simp only
  unfold tick
  generalize reply : m.meter.onOperation _ _ _ = r
  rcases r with ⟨_ | reason, meter, account⟩
  all_goals
    rw [runOn_bind]
    change runOn _ m = _
    simp only [runOn_bind]
    rw [reply]
    rfl

theorem runOn_host (action : Host Value) (m : Machine) :
    (host action).runOn m =
      (ofHost (action.run m.world).1).runOn { m with world := (action.run m.world).2 } := rfl

theorem runOn_asFunction (m : Machine) (scope : List Binding) (body : Eval Value) :
    (asFunction scope body).runOn m = match body.runOn { m with scope := scope } with
      | (ended, left) =>
        ((leave ended).map fun v => (v, (left.lookup? "this").map fun x => x.content.value),
          { left with scope := m.scope }) := rfl

theorem runOn_attempt (m : Machine) (body : Eval Unit) (handler : Value → Eval Unit) :
    (Eval.attempt body handler).runOn m = match body.runOn m with
      | (.error (.interrupted i), left) =>
        if i.isCatchable then
          match (handler (caughtValue i)).runOn (left.recovered (.handler i)) with
          | (.error h, left) => (.error (rethrown i h), left)
          | (.ok (), left) => (.ok (), left)
        else (.error (.interrupted i), left)
      | other => other := rfl

theorem runOn_discarding (m : Machine) (e : Eval α) :
    (discarding e).runOn m = match e.runOn m with
      | (.ok a, left) => (.ok (some a), left)
      | (.error _, left) => (.ok none, left.recovered .comparison) := rfl

theorem runOn_ifMissing (m : Machine) (name : String) (e next : Eval α) :
    (ifMissing name e next).runOn m = match e.runOn m with
      | (.error h, left) => if isMissing name h then next.runOn left else (.error h, left)
      | other => other := rfl

theorem runOn_throughCall (m : Machine) (e : Eval α) :
    (throughCall e).runOn m = match e.runOn m with
      | (.error (.interrupted i), left) => (.error (.interrupted (.inFunction i)), left)
      | other => other := rfl

theorem runOn_turn (m : Machine) (body : Eval Unit) (next : Eval Value) :
    (Eval.turn body next).runOn m = match body.runOn m with
      | (.ok (), left) => next.runOn left
      | (.error .continued, left) => next.runOn left
      | (.error (.broke v), left) => (.ok v, left)
      | (.error h, left) => (.error h, left) := rfl

theorem rethrown_cases (i : Interruption) (h : Halt) :
    rethrown i h = .interrupted i ∨ rethrown i h = h := by
  unfold rethrown
  split
  · exact .inl rfl
  · exact .inr rfl

end Eval

theorem Program.run_snd (p : Program) (limits : Limits) (capabilities : Capabilities)
    (m : Machine) : (p.run limits capabilities m).2 =
      ((Stmt.runAll (p.environment limits capabilities) p.body).runOn m).2 := by
  unfold Program.run
  rcases (Stmt.runAll (p.environment limits capabilities) p.body).runOn m
    with ⟨(_ | _ | _ | _ | _) | _, left⟩
  all_goals rfl

end GuildSandbox.Script

import GuildSandbox.Script.Evaluate

/-!
Properties of every script.

A property of computations that holds of the single things a script does, and that is handed on by
the ways in which computations are put together, holds of every script. The induction over
expressions and statements is made here once, and the one over the levels of function calls.
-/

set_option autoImplicit false
set_option relaxedAutoImplicit false

namespace GuildSandbox.Script

def Halt.IsOwn (h : Halt) : Prop :=
  ∀ i reason, h = .interrupted i → i.toRunError ≠ .cancelled reason

private theorem Halt.isOwn_fault (f : Fault) : (Halt.interrupted (.fault f)).IsOwn := by
  rintro _ reason ⟨⟩ ⟨⟩

namespace Eval

variable {α β : Type}

def turn (body : Eval Unit) (next : Eval Value) : Eval Value := fun m =>
  match body.runOn m with
  | (.ok (), m) => next m
  | (.error .continued, m) => next m
  | (.error (.broke v), m) => (.ok v, m)
  | (.error h, m) => (.error h, m)

/-- The computation changes variables at most, and has no part in the cancellation of the run. -/
structure IsLocal (e : Eval α) : Prop where
  others : ∀ m, ∃ scope cells, (e.runOn m).2 = { m with scope := scope, cells := cells }
  own : ∀ m h, (e.runOn m).1 = .error h → h.IsOwn

structure Inherited (capabilities : Capabilities) (P : (α : Type) → Eval α → Prop) : Prop where
  ofLocal : ∀ {α : Type} {e : Eval α}, IsLocal e → P α e
  bind : ∀ {α β : Type} {e : Eval α} {next : α → Eval β},
    P α e → (∀ a, P β (next a)) → P β (e >>= next)
  tick : P Unit tick
  call : ∀ {name : String} {args : List Value} {action : Host Value},
    capabilities.function? name args = some action → P Value (host action)
  property : ∀ {view : View} {name : String} {action : Host Value},
    capabilities.property? view name = some action → P Value (host action)
  enclosed : ∀ {α : Type} {e : Eval α}, P α e → P α (enclosed e)
  asFunction : ∀ (scope : List Binding) {body : Eval Value},
    P Value body → P (Value × Option Value) (asFunction scope body)
  attempt : ∀ {body : Eval Unit} {handler : Value → Eval Unit},
    P Unit body → (∀ v, P Unit (handler v)) → P Unit (attempt body handler)
  discarding : ∀ {α : Type} {e : Eval α}, P α e → P (Option α) (discarding e)
  ifMissing : ∀ {α : Type} {e next : Eval α} (name : String),
    P α e → P α next → P α (ifMissing name e next)
  throughCall : ∀ {α : Type} {e : Eval α}, P α e → P α (throughCall e)
  turn : ∀ {body : Eval Unit} {next : Eval Value},
    P Unit body → P Value next → P Value (turn body next)

private theorem isLocal_pure (a : α) : IsLocal (pure a : Eval α) :=
  ⟨fun m => ⟨m.scope, m.cells, rfl⟩, fun _ _ halted => by cases halted⟩

private theorem isLocal_throw {h : Halt} (own : h.IsOwn) : IsLocal (throw h : Eval α) :=
  ⟨fun m => ⟨m.scope, m.cells, rfl⟩, fun _ _ halted => by cases halted; exact own⟩

private theorem isLocal_fault (f : Fault) : IsLocal (fault f : Eval α) :=
  isLocal_throw (Halt.isOwn_fault f)

private theorem isLocal_ofFault (result : Except Fault α) : IsLocal (ofFault result) := by
  cases result with
  | ok a => exact isLocal_pure a
  | error f => exact isLocal_fault f

private theorem isLocal_sized (limits : Limits) (v : Value) : IsLocal (sized limits v) :=
  isLocal_ofFault _

private theorem isLocal_lookup? (name : String) : IsLocal (lookup? name) :=
  ⟨fun m => ⟨m.scope, m.cells, rfl⟩, fun _ _ halted => by cases halted⟩

private theorem isLocal_contents (cells : List Nat) : IsLocal (contents cells) :=
  ⟨fun m => ⟨m.scope, m.cells, rfl⟩, fun _ _ halted => by cases halted⟩

private theorem isLocal_bind (name : String) (value : Value) (isConstant : Bool) :
    IsLocal (bind name value isConstant) :=
  ⟨fun m => ⟨_ :: m.scope, m.cells, rfl⟩, fun _ _ halted => by cases halted⟩

private theorem isLocal_assign (name : String) (value : Value) : IsLocal (assign name value) := by
  refine ⟨fun m => ?_, fun _ _ halted => by cases halted⟩
  change ∃ scope cells, m.assign name value = _
  unfold Machine.assign
  split
  · exact ⟨m.scope, m.cells, rfl⟩
  · exact ⟨_, m.cells, rfl⟩
  · exact ⟨m.scope, _, rfl⟩

private theorem isLocal_share? (name : String) : IsLocal (share? name) := by
  refine ⟨fun m => ?_, fun _ _ halted => by cases halted⟩
  change ∃ scope cells, (m.share name).2 = _
  unfold Machine.share
  split
  · exact ⟨m.scope, m.cells, rfl⟩
  · exact ⟨m.scope, m.cells, rfl⟩
  · exact ⟨_, _, rfl⟩

private theorem isLocal_truth (v : Value) : IsLocal (truth v) := by
  unfold truth
  split
  · exact isLocal_pure _
  · exact isLocal_fault _

namespace Inherited

variable {capabilities : Capabilities} {P : (α : Type) → Eval α → Prop}
  (inherited : Inherited capabilities P)

include inherited

private theorem pure (a : α) : P α (Pure.pure a) := inherited.ofLocal (isLocal_pure a)

private theorem throw {h : Halt} (own : h.IsOwn) : P α (MonadExcept.throw h) :=
  inherited.ofLocal (isLocal_throw own)

private theorem ticked {e : Eval α} (rest : P α e) : P α (Eval.tick >>= fun _ => e) :=
  inherited.bind inherited.tick fun _ => rest

private theorem giving {e : Eval α} {f : α → β} (first : P α e) :
    P β (e >>= fun a => Pure.pure (f a)) :=
  inherited.bind first fun a => inherited.pure (f a)

private theorem fault (f : Fault) : P α (fault f) := inherited.ofLocal (isLocal_fault f)

private theorem guarded {c : Prop} [Decidable c] {f : Fault} {e : Eval α} (rest : P α e) :
    P α (if c then Eval.fault f >>= fun _ : Unit => e else e) := by
  split
  · exact inherited.bind (inherited.fault f) fun _ => rest
  · exact rest

private theorem ofFault (result : Except Fault α) : P α (ofFault result) :=
  inherited.ofLocal (isLocal_ofFault result)

private theorem sized (limits : Limits) (v : Value) : P Value (sized limits v) :=
  inherited.ofLocal (isLocal_sized limits v)

private theorem lookup? (name : String) : P (Option Variable) (lookup? name) :=
  inherited.ofLocal (isLocal_lookup? name)

private theorem share? (name : String) : P (Option Nat) (share? name) :=
  inherited.ofLocal (isLocal_share? name)

private theorem contents (cells : List Nat) : P (List Value) (contents cells) :=
  inherited.ofLocal (isLocal_contents cells)

private theorem assign (name : String) (value : Value) : P Unit (assign name value) :=
  inherited.ofLocal (isLocal_assign name value)

private theorem declare (name : String) (value : Value) (isConstant : Bool) :
    P Unit (Eval.bind name value isConstant) :=
  inherited.ofLocal (isLocal_bind name value isConstant)

private theorem truth (v : Value) : P Bool (truth v) := inherited.ofLocal (isLocal_truth v)

variable {body : Nat → Value → Eval Unit}

private theorem eachItem (turns : ∀ index v, P Unit (body index v)) (index : Nat)
    (items : List Value) :
    P Value (eachItem body index items) := by
  induction items generalizing index with
  | nil => exact inherited.pure _
  | cons v rest ih => exact inherited.turn (turns index v) (ih (index + 1))

private theorem eachInteger (turns : ∀ index v, P Unit (body index v)) (count index : Nat)
    (low : Int) :
    P Value (eachInteger body count index low) := by
  induction count generalizing index low with
  | zero => exact inherited.pure _
  | succ count ih => exact inherited.turn (turns index _) (ih (index + 1) (low + 1))

private theorem each (turns : ∀ index v, P Unit (body index v)) (source : Value) :
    P Value (each source body) := by
  unfold Eval.each
  split
  · exact inherited.eachItem turns _ _
  · exact inherited.eachItem turns _ _
  · exact inherited.eachInteger turns _ _ _
  · exact inherited.fault _

private theorem cellsOf (names : List String) : P (List Nat) (cellsOf names) := by
  induction names with
  | nil => exact inherited.pure _
  | cons name rest ih =>
    refine inherited.bind (inherited.share? name) fun found => ?_
    split
    · exact inherited.giving ih
    · exact inherited.fault _

end Inherited

end Eval

namespace Environment

open Eval

structure Inherits (env : Environment) (P : (α : Type) → Eval α → Prop) : Prop
    extends Inherited env.capabilities P where
  invoke : ∀ f receiver cells args, P (Value × Option Value) (env.invoke f receiver cells args)
  callBack : ∀ name receiver args, P Reply (env.callBack name receiver args)

section

variable {P : (α : Type) → Eval α → Prop} {capabilities : Capabilities}
  (inherited : Inherited capabilities P)

include inherited

section

variable {hand : Handout → Eval (Value × Value)} (hands : ∀ h, P (Value × Value) (hand h))

include hands

private theorem handAll_inherits (stops : Value → Bool) (handouts : List Handout) :
    P (List (Value × Value)) (handAll hand stops handouts) := by
  induction handouts with
  | nil => exact inherited.pure _
  | cons h rest ih =>
    refine inherited.bind (hands h) fun met => ?_
    simp only
    split
    · exact inherited.pure _
    · exact inherited.giving ih

private theorem reduce_inherits (soFar : Value) (items : List (Value × Nat)) :
    P (Value × List Value) (reduce hand soFar items) := by
  induction items generalizing soFar with
  | nil => exact inherited.pure _
  | cons item rest ih =>
    refine inherited.bind (hands _) fun reduced => ?_
    exact inherited.giving (ih reduced.1)

end

section

variable {compare : Value → Value → Eval Value} (compares : ∀ a b, P Value (compare a b))

include compares

private theorem precedes_inherits (a b : Value) : P Bool (precedes compare a b) := by
  refine inherited.bind (inherited.discarding (compares a b)) fun said => ?_
  split
  · exact inherited.pure _
  · exact inherited.pure _

private theorem agree_inherits (a b : Value) : P Bool (agree compare a b) := by
  refine inherited.bind (inherited.discarding (compares a b)) fun said => ?_
  split
  · exact inherited.pure _
  · exact inherited.pure _

private theorem insert_inherits (v : Value) (sorted : List Value) :
    P (List Value) (Environment.insert compare v sorted) := by
  induction sorted with
  | nil => exact inherited.pure _
  | cons w rest ih =>
    refine inherited.bind (precedes_inherits inherited compares v w) fun before => ?_
    split
    · exact inherited.giving ih
    · exact inherited.pure _

private theorem sort_inherits (sorted items : List Value) :
    P (List Value) (Environment.sort compare sorted items) := by
  induction items generalizing sorted with
  | nil => exact inherited.pure _
  | cons v rest ih => exact inherited.bind (insert_inherits inherited compares v sorted) ih

private theorem dedup_inherits (last : Value) (items : List Value) :
    P (List Value) (Environment.dedup compare last items) := by
  induction items generalizing last with
  | nil => exact inherited.pure _
  | cons v rest ih =>
    refine inherited.bind (agree_inherits inherited compares last v) fun same => ?_
    split
    · exact ih last
    · exact inherited.giving (ih v)

end

end

variable {P : (α : Type) → Eval α → Prop} {env : Environment} (inherited : env.Inherits P)

include inherited

private theorem tryWays_inherits (name : String)
    {call : Option Value × List Value → Eval (Value × Value)}
    (calls : ∀ way, P (Value × Value) (call way)) (way : Option Value × List Value)
    (others : List (Option Value × List Value)) :
    P (Value × Value) (tryWays name call way others) := by
  induction others generalizing way with
  | nil => exact calls way
  | cons next others ih => exact inherited.ifMissing name (calls way) (ih next)

private theorem handByName_inherits (name : String) (bound : List Value) (h : Handout) :
    P (Value × Value) (env.handByName name bound h) := by
  refine inherited.throughCall (tryWays_inherits inherited name (fun way => ?_) _ _)
  exact inherited.giving (inherited.callBack _ _ _)

private theorem hand_inherits (name : String) (carried : List Carried) (h : Handout) :
    P (Value × Value) (env.hand name carried h) := by
  unfold hand
  simp only
  split
  · exact inherited.giving (inherited.invoke _ _ _ _)
  · exact inherited.bind (inherited.contents _) fun _ => handByName_inherits inherited _ _ _

private theorem compare_inherits (name : String) (carried : List Carried) (a b : Value) :
    P Value (env.compare name carried a b) := by
  unfold Environment.compare
  simp only
  split
  · exact inherited.giving (inherited.invoke _ _ _ _)
  · refine inherited.bind (inherited.contents _) fun _ => ?_
    exact inherited.giving (inherited.callBack _ _ _)

private theorem library?_inherits {name : String} {args : List Value} {action : Eval Reply}
    (found : env.library? name args = some action) : P Reply action := by
  have hands (f : String) (carried : List Carried) (h : Handout) :
      P (Value × Value) (env.hand f carried h) := hand_inherits inherited f carried h
  have compares (f : String) (carried : List Carried) (a b : Value) :
      P Value (env.compare f carried a b) := compare_inherits inherited f carried a b
  unfold library? at found
  simp only at found
  split at found
  case h_1 | h_2 | h_3 | h_4 =>
    cases found
    exact inherited.giving (reduce_inherits inherited.toInherited (hands _ _) _ _)
  case h_5 =>
    cases found
    exact inherited.giving (sort_inherits inherited.toInherited (compares _ _) _ _)
  case h_6 =>
    cases found
    exact inherited.pure _
  case h_7 =>
    cases found
    exact inherited.giving (dedup_inherits inherited.toInherited (compares _ _) _ _)
  case h_8 | h_9 =>
    obtain ⟨kind, -, rfl⟩ := Option.map_eq_some_iff.1 found
    exact inherited.giving (handAll_inherits inherited.toInherited (hands _ _) _ _)
  case h_10 => cases found

private theorem standard?_inherits {name : String} {args : List Value} {action : Eval Reply}
    (found : env.standard? name args = some action) : P Reply action := by
  unfold standard? at found
  split at found
  next called =>
    cases found
    exact library?_inherits inherited called
  next =>
    obtain ⟨outcome, -, rfl⟩ := Option.map_eq_some_iff.1 found
    exact inherited.ofFault outcome

private theorem callNative_inherits (isConstant : Bool) (name : String) (args : List Value) :
    P Reply (env.callNative isConstant name args) := by
  unfold callNative
  split
  next action found =>
    simp only
    refine inherited.guarded ?_
    refine inherited.bind (standard?_inherits inherited found) fun reply => ?_
    split
    · refine inherited.bind (inherited.sized _ _) fun _ => ?_
      exact inherited.giving (inherited.sized _ _)
    · exact inherited.giving (inherited.sized _ _)
  next =>
    split
    next offered =>
      refine inherited.bind (inherited.call offered) fun result => ?_
      exact inherited.giving (inherited.sized _ _)
    next => exact inherited.fault _

private theorem property_inherits (v : Value) (name : String) : P Value (env.property v name) := by
  unfold property
  split
  · split
    next offered => exact inherited.property offered
    next => exact inherited.fault _
  · exact inherited.pure _
  · exact inherited.pure _
  · exact inherited.fault _

private theorem callNamed_inherits (isConstant : Bool) (name : String) (args : List Value) :
    P Reply (env.callNamed isConstant name args) := by
  unfold callNamed
  split
  · exact inherited.giving (inherited.invoke _ _ _ _)
  · exact callNative_inherits inherited _ _ _

private theorem callValue_inherits (name : String) (carried : List Carried) (args : List Value) :
    P Reply (env.callValue name carried args) := by
  unfold callValue
  simp only
  split
  · exact inherited.giving (inherited.invoke _ _ _ _)
  · exact inherited.bind (inherited.contents _) fun _ => callNative_inherits inherited _ _ _

private theorem call_inherits (isConstant : Bool) (name : String) (args : List Value) :
    P Reply (env.call isConstant name args) := by
  unfold call
  split
  · exact inherited.giving (inherited.invoke _ _ _ _)
  · exact inherited.throw nofun
  · exact inherited.throw nofun
  · exact callValue_inherits inherited _ _ _
  · refine inherited.bind (inherited.lookup? _) fun found => ?_
    split
    · exact callValue_inherits inherited _ _ _
    · exact callNative_inherits inherited _ _ _

private theorem callMethodNamed_inherits (isConstant : Bool) (name : String) (receiver : Value)
    (args : List Value) : P Reply (env.callMethodNamed isConstant name receiver args) := by
  unfold callMethodNamed
  split
  · exact inherited.giving (inherited.invoke _ _ _ _)
  · exact callNative_inherits inherited _ _ _

private theorem callMethod_inherits (isConstant : Bool) (name : String) (receiver : Value)
    (args : List Value) : P Reply (env.callMethod isConstant name receiver args) := by
  unfold callMethod
  split
  · exact callValue_inherits inherited _ _ _
  · exact callMethodNamed_inherits inherited _ _ _ _

private theorem follow_inherits (isConstant : Bool) (steps : List Step) (v : Value) :
    P (Value × Value) (env.follow isConstant steps v) := by
  induction steps generalizing isConstant v with
  | nil => exact inherited.pure _
  | cons step rest ih =>
    cases step with
    | property name =>
      refine inherited.ticked ?_
      split
      · exact inherited.giving (ih _ _)
      · refine inherited.bind (property_inherits inherited _ _) fun _ => ?_
        exact inherited.giving (ih _ _)
    | index position =>
      refine inherited.ticked ?_
      refine inherited.bind (inherited.ofFault _) fun item => ?_
      refine inherited.bind (ih _ _) fun result => ?_
      simp only
      split
      · exact inherited.giving (inherited.ofFault _)
      · exact inherited.pure _
    | method name args =>
      refine inherited.ticked ?_
      refine inherited.bind (callMethod_inherits inherited _ _ _ _) fun reply => ?_
      exact inherited.giving (ih _ _)
    | optional =>
      cases v with
      | unit => exact inherited.pure _
      | _ => exact ih _ _

private theorem setProperty_inherits (a : Assignment) (name : String) (v : Value) :
    P Value (env.store a [.property name] v) := by
  cases v with
  | map entries => exact inherited.ofFault _
  | _ =>
    cases op : a.op with
    | none =>
      simp only [store, op]
      exact inherited.bind (inherited.pure _) fun _ => inherited.fault _
    | some operator =>
      simp only [store, op]
      refine inherited.bind (property_inherits inherited _ _) fun _ => ?_
      exact inherited.bind (inherited.ofFault _) fun _ => inherited.fault _

private theorem store_inherits (a : Assignment) (steps : List Step) (v : Value) :
    P Value (env.store a steps v) := by
  induction steps generalizing v with
  | nil => exact inherited.ofFault _
  | cons step rest ih =>
    cases step with
    | method name args => exact inherited.pure _
    | optional =>
      cases v with
      | unit => exact inherited.pure _
      | _ => exact ih _
    | index position =>
      cases rest with
      | nil => exact inherited.bind (inherited.ofFault _) fun _ => inherited.ofFault _
      | cons next later =>
        refine inherited.ticked ?_
        refine inherited.bind (inherited.ofFault _) fun item => ?_
        exact inherited.bind (ih _) fun _ => inherited.ofFault _
    | property name =>
      cases rest with
      | nil => exact setProperty_inherits inherited a name v
      | cons next later =>
        refine inherited.ticked ?_
        split
        · exact inherited.bind (ih _) fun _ => inherited.ofFault _
        · refine inherited.bind (property_inherits inherited _ _) fun _ => ?_
          exact inherited.giving (ih _)

private theorem valueOf_inherits (name : String) : P Value (env.valueOf name) := by
  refine inherited.bind (inherited.lookup? _) fun found => ?_
  split
  · exact inherited.pure _
  · split
    · exact inherited.fault _
    · split
      · exact inherited.pure _
      · exact inherited.fault _

private theorem assignVariable_inherits (name : String) (steps : List Step) (a : Assignment) :
    P Unit (env.assignVariable name steps a) := by
  refine inherited.bind (valueOf_inherits inherited name) fun v => ?_
  refine inherited.bind (inherited.lookup? _) fun found => ?_
  split
  · exact inherited.fault _
  · refine inherited.bind (store_inherits inherited a steps v) fun _ => ?_
    exact inherited.bind (inherited.sized _ _) fun _ => inherited.assign _ _

private theorem followVariable_inherits (name : String) (steps : List Step) :
    P Value (env.followVariable name steps) := by
  refine inherited.bind (valueOf_inherits inherited name) fun v => ?_
  refine inherited.bind (inherited.lookup? _) fun found => ?_
  refine inherited.bind (follow_inherits inherited _ _ _) fun _ => ?_
  exact inherited.giving (inherited.assign _ _)

private theorem callOnVariable_inherits (name first : String) (args : List Value) :
    P Value (env.callOnVariable name first args) := by
  refine inherited.bind (inherited.lookup? _) fun found => ?_
  refine inherited.bind (call_inherits inherited _ _ _) fun reply => ?_
  simp only
  split
  · split
    · exact inherited.giving (inherited.assign _ _)
    · exact inherited.pure _
  · exact inherited.pure _

end Environment

section

open Eval Environment

variable {P : (α : Type) → Eval α → Prop} {env : Environment} (inherited : env.Inherits P)

include inherited

mutual

private theorem Expr.eval_inherits : (e : Expr) → P Value (Expr.eval env e)
  | .literal v => by
    rw [Expr.eval]
    exact inherited.ticked (inherited.pure _)
  | .variable name => by
    rw [Expr.eval]
    exact inherited.ticked (valueOf_inherits inherited name)
  | .template parts => by
    rw [Expr.eval]
    refine inherited.ticked ?_
    exact inherited.giving (Expr.evalTemplate_inherits parts "")
  | .array items => by
    rw [Expr.eval]
    refine inherited.ticked ?_
    exact inherited.bind (Expr.evalAll_inherits items) fun _ => inherited.sized _ _
  | .map entries => by
    rw [Expr.eval]
    refine inherited.ticked ?_
    exact inherited.bind (MapEntry.evalAll_inherits entries) fun _ => inherited.sized _ _
  | .call name args => by
    rw [Expr.eval]
    refine inherited.ticked ?_
    refine inherited.bind (Expr.evalAll_inherits args) fun values => ?_
    split
    · exact callOnVariable_inherits inherited _ _ _
    · exact inherited.giving (call_inherits inherited _ _ _)
  | .chain root links => by
    rw [Expr.eval]
    refine inherited.ticked ?_
    refine inherited.bind (Link.evalAll_inherits links) fun steps => ?_
    split
    · exact followVariable_inherits inherited _ _
    · refine inherited.bind (Expr.eval_inherits root) fun _ => ?_
      exact inherited.giving (follow_inherits inherited _ _ _)
  | .unary op operand => by
    rw [Expr.eval]
    refine inherited.ticked ?_
    exact inherited.bind (Expr.eval_inherits operand) fun _ => inherited.ofFault _
  | .binary op left right => by
    rw [Expr.eval]
    refine inherited.ticked ?_
    refine inherited.bind (Expr.eval_inherits left) fun _ => ?_
    refine inherited.bind (Expr.eval_inherits right) fun _ => ?_
    exact inherited.bind (inherited.ofFault _) fun _ => inherited.sized _ _
  | .both left right => by
    rw [Expr.eval]
    refine inherited.ticked ?_
    refine inherited.bind (Expr.eval_inherits left) fun _ => ?_
    refine inherited.bind (inherited.truth _) fun holds => ?_
    split
    · refine inherited.bind (Expr.eval_inherits right) fun _ => ?_
      exact inherited.giving (inherited.truth _)
    · exact inherited.pure _
  | .either left right => by
    rw [Expr.eval]
    refine inherited.ticked ?_
    refine inherited.bind (Expr.eval_inherits left) fun _ => ?_
    refine inherited.bind (inherited.truth _) fun holds => ?_
    split
    · exact inherited.pure _
    · refine inherited.bind (Expr.eval_inherits right) fun _ => ?_
      exact inherited.giving (inherited.truth _)
  | .orElse left right => by
    rw [Expr.eval]
    refine inherited.ticked ?_
    refine inherited.bind (Expr.eval_inherits left) fun v => ?_
    split
    · exact Expr.eval_inherits right
    · exact inherited.pure _
  | .lambda name captured => by
    rw [Expr.eval]
    refine inherited.ticked ?_
    exact inherited.giving (inherited.cellsOf captured)
  | .imported path args => by
    rw [Expr.eval]
    exact inherited.fault _
  | .statement s => by
    rw [Expr.eval]
    exact Stmt.run_inherits s

private theorem Expr.evalAll_inherits : (es : List Expr) → P (List Value) (Expr.evalAll env es)
  | [] => inherited.pure _
  | e :: rest => by
    rw [Expr.evalAll]
    refine inherited.bind (Expr.eval_inherits e) fun _ => ?_
    exact inherited.giving (Expr.evalAll_inherits rest)

private theorem Expr.evalTemplate_inherits : (parts : List Expr) → ∀ text,
    P String (Expr.evalTemplate env text parts)
  | [], text => inherited.pure _
  | e :: rest, text => by
    rw [Expr.evalTemplate]
    refine inherited.bind (Expr.eval_inherits e) fun _ => ?_
    refine inherited.bind (inherited.sized _ _) fun _ => ?_
    exact Expr.evalTemplate_inherits rest _

private theorem MapEntry.evalAll_inherits : (entries : List MapEntry) →
    P (List (String × Value)) (MapEntry.evalAll env entries)
  | [] => inherited.pure _
  | .mk key e :: rest => by
    rw [MapEntry.evalAll]
    refine inherited.bind (Expr.eval_inherits e) fun _ => ?_
    exact inherited.giving (MapEntry.evalAll_inherits rest)

private theorem Link.evalAll_inherits : (links : List Link) → P (List Step) (Link.evalAll env links)
  | [] => inherited.pure _
  | .property name :: rest => by
    rw [Link.evalAll]
    exact inherited.giving (Link.evalAll_inherits rest)
  | .method name args :: rest => by
    rw [Link.evalAll]
    refine inherited.bind (Expr.evalAll_inherits args) fun _ => ?_
    exact inherited.giving (Link.evalAll_inherits rest)
  | .index e :: rest => by
    rw [Link.evalAll]
    refine inherited.bind (Expr.eval_inherits e) fun _ => ?_
    exact inherited.giving (Link.evalAll_inherits rest)
  | .optional :: rest => by
    rw [Link.evalAll]
    exact inherited.giving (Link.evalAll_inherits rest)

private theorem Stmt.run_inherits : (s : Stmt) → P Value (Stmt.run env s)
  | .noop => inherited.pure _
  | .eval e => by
    rw [Stmt.run]
    exact inherited.ticked (Expr.eval_inherits e)
  | .declare name isConstant e => by
    rw [Stmt.run]
    refine inherited.ticked ?_
    refine inherited.bind (Expr.eval_inherits e) fun _ => ?_
    exact inherited.giving (inherited.declare _ _ _)
  | .assign name links op e => by
    rw [Stmt.run]
    refine inherited.ticked ?_
    refine inherited.bind (Expr.eval_inherits e) fun _ => ?_
    refine inherited.bind (Link.evalAll_inherits links) fun _ => ?_
    exact inherited.giving (assignVariable_inherits inherited _ _ _)
  | .choose condition onTrue onFalse => by
    rw [Stmt.run]
    refine inherited.ticked ?_
    refine inherited.bind (Expr.eval_inherits condition) fun _ => ?_
    refine inherited.bind (inherited.truth _) fun holds => ?_
    split
    · exact inherited.enclosed (Stmt.runAll_inherits onTrue)
    · exact inherited.enclosed (Stmt.runAll_inherits onFalse)
  | .switch subject cases fallback => by
    rw [Stmt.run]
    refine inherited.ticked ?_
    refine inherited.bind (Expr.eval_inherits subject) fun v => ?_
    refine inherited.bind (Case.select_inherits cases _) fun exactly => ?_
    split
    · exact inherited.pure _
    · refine inherited.bind (Case.select_inherits cases _) fun spanning => ?_
      split
      · exact inherited.pure _
      · exact inherited.enclosed (Stmt.run_inherits fallback)
  | .forEach item counter source body => by
    rw [Stmt.run]
    refine inherited.ticked ?_
    refine inherited.bind (Expr.eval_inherits source) fun v => ?_
    have loop : P Value (Eval.each v fun index v => Eval.enclosed do
        Eval.tick
        if let some name := counter then Eval.assign name (Builtin.size index)
        Eval.assign item v
        let _ ← Stmt.runAll env body) := by
      refine inherited.each (fun index v => inherited.enclosed (inherited.ticked ?_)) v
      have turn : P Unit (do
          Eval.assign item v
          let _ ← Stmt.runAll env body) := by
        refine inherited.bind (inherited.assign _ _) fun _ => ?_
        exact inherited.giving (Stmt.runAll_inherits body)
      simp only
      split
      · exact inherited.bind (inherited.assign _ _) fun _ => turn
      · exact turn
    have entered := inherited.bind (inherited.declare item .unit false) fun _ => loop
    refine inherited.enclosed ?_
    simp only
    split
    · exact inherited.bind (inherited.declare _ _ _) fun _ => entered
    · exact entered
  | .block body => by
    rw [Stmt.run]
    exact inherited.ticked (inherited.enclosed (Stmt.runAll_inherits body))
  | .breakWith e => by
    rw [Stmt.run]
    refine inherited.ticked ?_
    exact inherited.bind (Expr.eval_inherits e) fun _ => inherited.throw nofun
  | .continueLoop => by
    rw [Stmt.run]
    exact inherited.ticked (inherited.throw nofun)
  | .returnWith e => by
    rw [Stmt.run]
    refine inherited.ticked ?_
    exact inherited.bind (Expr.eval_inherits e) fun _ => inherited.throw nofun
  | .throwWith e => by
    rw [Stmt.run]
    refine inherited.ticked ?_
    exact inherited.bind (Expr.eval_inherits e) fun _ => inherited.fault _
  | .attempt body caught handler => by
    rw [Stmt.run]
    refine inherited.ticked ?_
    refine inherited.bind (inherited.attempt ?_ fun v => inherited.enclosed ?_)
      fun _ => inherited.pure _
    · exact inherited.giving (inherited.enclosed (Stmt.runAll_inherits body))
    · have handled : P Unit (do let _ ← Stmt.runAll env handler) :=
        inherited.giving (Stmt.runAll_inherits handler)
      simp only
      split
      · exact inherited.bind (inherited.declare _ _ _) fun _ => handled
      · exact handled
  | .importModule path shortName => by
    rw [Stmt.run]
    exact inherited.throw (by rintro _ _ ⟨⟩ ⟨⟩)

private theorem Stmt.runAll_inherits : (body : List Stmt) → P Value (Stmt.runAll env body)
  | [] => inherited.pure _
  | [s] => by
    rw [Stmt.runAll]
    exact Stmt.run_inherits s
  | s :: next :: rest => by
    rw [Stmt.runAll]
    · exact inherited.bind (Stmt.run_inherits s) fun _ => Stmt.runAll_inherits (next :: rest)
    · simp

private theorem Case.select_inherits : (cases : List Case) → ∀ isMatch,
    P (Option Value) (Case.select env isMatch cases)
  | [], isMatch => inherited.pure _
  | .mk patterns guard action :: rest, isMatch => by
    rw [Case.select]
    split
    · refine inherited.bind (Expr.eval_inherits guard) fun _ => ?_
      refine inherited.bind (inherited.truth _) fun holds => ?_
      split
      · exact inherited.giving (inherited.enclosed (Stmt.run_inherits action))
      · exact Case.select_inherits rest isMatch
    · exact Case.select_inherits rest isMatch

end

end

variable {P : (α : Type) → Eval α → Prop} {limits : Limits} {capabilities : Capabilities}

private theorem Program.environmentAt_inherits (inherited : Eval.Inherited capabilities P)
    (p : Program)
    (levels : Nat) : (p.environmentAt limits capabilities levels).Inherits P := by
  induction levels with
  | zero =>
    exact { inherited with
      invoke := fun _ _ _ _ => inherited.fault _
      callBack := fun _ _ _ => inherited.fault _ }
  | succ levels ih =>
    refine { inherited with
      invoke := fun f receiver cells args => ?_, callBack := fun name receiver args => ?_ }
    · exact inherited.ticked (inherited.asFunction _ (Stmt.runAll_inherits ih f.body))
    · cases receiver with
      | some v => exact Environment.callMethodNamed_inherits ih _ _ _ _
      | none => exact Environment.callNamed_inherits ih _ _ _

theorem Program.body_inherits (inherited : Eval.Inherited capabilities P) (p : Program) :
    P Value (Stmt.runAll (p.environment limits capabilities) p.body) :=
  Stmt.runAll_inherits (p.environmentAt_inherits inherited limits.maxCallLevels) p.body

end GuildSandbox.Script

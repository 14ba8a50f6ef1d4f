import GuildSandbox.Script.Interruption

/-!
Failures that come out of scripts.

An interruption is a failure of the host, a failure from elsewhere or a fault of the script, within the
function calls and modules that it has left on its way out. Those are peeled off again, whatever they
are: what comes out depends on the failure inside alone, and so does the outcome of the run.
-/

set_option autoImplicit false
set_option relaxedAutoImplicit false

namespace GuildSandbox

/-- An outcome says of a failure what it was: a cancellation, a script that does not compile, a module,
or else the failure itself. -/
structure Outcome.Tells (o : Outcome) (e : RunError) : Prop where
  cancelled : ∀ reason, o = .cancelled reason ↔ e = .cancelled reason
  compileError : ∀ detail, o = .compileError detail ↔ ∃ id, e = .compile id detail
  moduleLoading : o = .moduleLoadingDisallowed ↔ ∃ id, e = .moduleLoading id
  runtimeError : ∀ cause, o = .runtimeError cause ↔ cause = e ∧ (∀ reason, e ≠ .cancelled reason) ∧
    (∀ id detail, e ≠ .compile id detail) ∧ ∀ id, e ≠ .moduleLoading id

private theorem Outcome.tells_ofError (e : RunError) : (Outcome.ofError e).Tells e := by
  constructor
  case cancelled => intro reason; cases e <;> simp [Outcome.ofError]
  case compileError => intro detail; cases e <;> simp [Outcome.ofError]
  case moduleLoading => cases e <;> simp [Outcome.ofError]
  case runtimeError => intro cause; cases e <;> simp [Outcome.ofError, eq_comm]

namespace Script

inductive Enclosure where
  | functionCall
  | importedModule
  deriving DecidableEq, Repr

def Enclosure.around (i : Interruption) : Enclosure → Interruption
  | .functionCall => .inFunction i
  | .importedModule => .inModule i

namespace Interruption

/-- The interruption when it has left calls and modules, the innermost first. -/
def leaving (i : Interruption) (enclosures : List Enclosure) : Interruption :=
  enclosures.foldl Enclosure.around i

@[simp] theorem toRunError_around (i : Interruption) (enclosure : Enclosure) :
    (enclosure.around i).toRunError = i.toRunError := by
  cases enclosure <;> rfl

@[simp] theorem toRunError_leaving (i : Interruption) (enclosures : List Enclosure) :
    (i.leaving enclosures).toRunError = i.toRunError := by
  induction enclosures generalizing i with
  | nil => rfl
  | cons enclosure outer ih =>
    calc ((enclosure.around i).leaving outer).toRunError
        = (enclosure.around i).toRunError := ih (enclosure.around i)
      _ = i.toRunError := i.toRunError_around enclosure

private theorem leaving_concat (i : Interruption) (inner : List Enclosure) (enclosure : Enclosure) :
    i.leaving (inner ++ [enclosure]) = enclosure.around (i.leaving inner) := by
  simp [leaving]

private theorem exists_leaving (i : Interruption) :
    ∃ enclosures, i = i.core.leaving enclosures := by
  induction i with
  | host message cause => exact ⟨[], rfl⟩
  | fault f => exact ⟨[], rfl⟩
  | inFunction inner ih =>
    obtain ⟨enclosures, within⟩ := ih
    refine ⟨enclosures ++ [.functionCall], ?_⟩
    rw [leaving_concat]
    exact congrArg inFunction within
  | inModule inner ih =>
    obtain ⟨enclosures, within⟩ := ih
    refine ⟨enclosures ++ [.importedModule], ?_⟩
    rw [leaving_concat]
    exact congrArg inModule within

private theorem core_cases (i : Interruption) :
    (∃ message cause, i.core = host message cause) ∨ ∃ f, i.core = fault f := by
  induction i with
  | host message cause => exact .inl ⟨message, cause, rfl⟩
  | fault f => exact .inr ⟨f, rfl⟩
  | inFunction inner ih => exact ih
  | inModule inner ih => exact ih

/-- A failure of the host comes out of any calls and modules as it set out, and the outcome tells it. A
failure from elsewhere comes out as its message, a fault of the script as its text, and there is nothing
else that can come out. -/
theorem toRunError_by_core :
    (∀ (e : RunError) (enclosures : List Enclosure),
      ((ofRunError e).leaving enclosures).toRunError = e ∧
        (Outcome.ofError ((ofRunError e).leaving enclosures).toRunError).Tells e) ∧
    (∀ (message : String) (enclosures : List Enclosure),
      ((host message none).leaving enclosures).toRunError = .host message) ∧
    (∀ (f : Fault) (enclosures : List Enclosure),
      ((fault f).leaving enclosures).toRunError = .script f.message ∧
        Outcome.ofError ((fault f).leaving enclosures).toRunError =
          .runtimeError (.script f.message)) ∧
    ∀ i : Interruption, ∃ enclosures,
      (∃ message e, i = (host message (some e)).leaving enclosures ∧ i.toRunError = e) ∨
      (∃ message, i = (host message none).leaving enclosures) ∨
      ∃ f, i = (fault f).leaving enclosures := by
  refine ⟨fun e enclosures => ?_, fun message enclosures => ?_, fun f enclosures => ?_, fun i => ?_⟩
  · have recovered : ((ofRunError e).leaving enclosures).toRunError = e :=
      (toRunError_leaving _ enclosures).trans (toRunError_ofRunError e)
    rw [recovered]
    exact ⟨rfl, Outcome.tells_ofError e⟩
  · exact toRunError_leaving _ enclosures
  · have text : ((fault f).leaving enclosures).toRunError = .script f.message :=
      toRunError_leaving _ enclosures
    rw [text]
    exact ⟨rfl, rfl⟩
  · obtain ⟨enclosures, within⟩ := i.exists_leaving
    refine ⟨enclosures, ?_⟩
    rcases i.core_cases with ⟨message, _ | e, core⟩ | ⟨f, core⟩
    · exact .inr (.inl ⟨message, core ▸ within⟩)
    · rw [core] at within
      refine .inl ⟨message, e, within, ?_⟩
      rw [within, toRunError_leaving]
      rfl
    · exact .inr (.inr ⟨f, core ▸ within⟩)

end Interruption

end Script

end GuildSandbox

import GuildSandbox.Proofs.Host.Answers

set_option autoImplicit false
set_option relaxedAutoImplicit false

namespace GuildSandbox

namespace Account

/-- The second account is the first one, or the first one cancelled. -/
def CancelledTo (a b : Account) : Prop := b = a ∨ ∃ reason, b = (a.cancel reason).2

variable {a b c : Account}

theorem CancelledTo.refl (a : Account) : a.CancelledTo a := .inl rfl

private theorem cancel_cancel (a : Account) (first second : CancelReason) :
    ((a.cancel first).2.cancel second).2 = (a.cancel first).2 := by
  obtain ⟨reason, late⟩ : ∃ reason, (a.cancel first).2.cancelled = some reason :=
    ⟨_, cancelled_cancel a first⟩
  rw [cancel, record, late]

theorem CancelledTo.trans (h : a.CancelledTo b) (k : b.CancelledTo c) : a.CancelledTo c := by
  rcases h with rfl | ⟨first, rfl⟩
  · exact k
  · rcases k with rfl | ⟨second, rfl⟩
    · exact .inr ⟨first, rfl⟩
    · exact .inr ⟨first, cancel_cancel a first second⟩

end Account

theorem World.cancelledTo_elapse (w : World) (nanos : Nat) :
    w.account.CancelledTo (w.elapse nanos).account := by
  unfold elapse
  split
  · exact .inr ⟨_, rfl⟩
  · exact .inl rfl

theorem World.reachesDeadline_stopTime {w : World} {nanos : Nat}
    (late : w.reachesDeadline nanos = true) (longer : Nat) :
    w.reachesDeadline (w.stopTime + longer - w.clock) = true := by
  unfold reachesDeadline at late ⊢
  unfold stopTime
  cases deadline : w.deadline with
  | none => rw [deadline] at late; cases late
  | some t => simp only [Option.getD_some, decide_eq_true_eq]; omega

namespace Host

variable {α β : Type}

def Truthful (action : Host α) : Prop :=
  ∀ w reason, (action.run w).1 = .error (.cancelled reason) →
    ∃ first, (action.run w).2.account.cancelled = some first

/-- The action can cancel the run and does nothing else to its account. -/
structure Orderly (action : Host α) : Prop where
  account : ∀ w : World, w.account.CancelledTo (action.run w).2.account
  truthful : Truthful action

theorem truthful_pure (a : α) : Truthful (pure a : Host α) := fun _ _ fails => by cases fails

theorem truthful_getThe : Truthful (getThe World : Host World) := fun _ _ fails => by cases fails

theorem truthful_ofExcept {result : Except RunError α}
    (h : ∀ reason, result ≠ .error (.cancelled reason)) : Truthful (ofExcept result : Host α) := by
  intro w reason fails
  rw [run_ofExcept] at fails
  exact absurd fails (h reason)

theorem Truthful.bind {action : Host α} {next : α → Host β} (first : Truthful action)
    (then_ : ∀ a, Truthful (next a)) : Truthful (action >>= next) := by
  intro w reason fails
  have here := first w reason
  rw [run_bind] at fails ⊢
  rcases outcome : action.run w with ⟨e | a, left⟩
  · rw [outcome] at fails here
    exact here (congrArg _ (Except.error.inj fails))
  · rw [outcome] at fails
    exact then_ a left reason fails

theorem Truthful.map {action : Host α} (f : α → β) (h : Truthful action) :
    Truthful (f <$> action) := by
  rw [map_eq_pure_bind]
  exact h.bind fun a => truthful_pure (f a)

/-- What a call comes to in a run that is active: it is dropped at the deadline, or it takes effect
and the run is checked once more. -/
theorem call_of_active (c : HostCall α) {w : World} (active : w.account.cancelled = none) :
    (w.idled.reachesDeadline (c.wait w.idled) = true ∧
      (call c).run w = (.error (.cancelled
          ((w.idled.elapseToDeadline 0).account.signal.getD .totalDurationLimit)),
        w.resumed (w.idled.elapseToDeadline 0))) ∨
    ∃ result left, c.effect.run (w.idled.elapse (c.wait w.idled)) = (result, left) ∧
      (call c).run w = ((match left.account.cancelled with
        | some first => .error (.cancelled first)
        | none => result), w.resumed left) := by
  rw [run_call, active, run_settle]
  cases late : decide (0 < c.wait w.idled) && w.idled.reachesDeadline (c.wait w.idled) with
  | true =>
    obtain ⟨-, reaches⟩ := Bool.and_eq_true_iff.1 late
    exact .inl ⟨reaches, rfl⟩
  | false =>
    rcases c.effect.run (w.idled.elapse (c.wait w.idled)) with ⟨result, left⟩
    refine .inr ⟨result, left, rfl, ?_⟩
    simp only [Bool.false_eq_true, if_false, World.cancelled_resumed]
    cases left.account.cancelled with
    | some first => rfl
    | none => rfl

/-- A call is cancelled with nothing but time gone by, or it takes effect at some later time, and what
comes of that is the result unless the run is cancelled by then. -/
theorem call_cases (c : HostCall α) (w : World) :
    (∃ reason clock account, (call c).run w =
      (.error (.cancelled reason), { w with clock := clock, account := account })) ∨
    ∃ clock account result left reply,
      c.effect.run { w with clock := clock, account := account } = (result, left) ∧
      (call c).run w = (reply, w.resumed left) ∧
      (reply = result ∨ ∃ reason, reply = .error (.cancelled reason)) := by
  cases early : w.account.cancelled with
  | some reason => exact .inl ⟨reason, w.clock, w.account, call_of_cancelled early c⟩
  | none =>
    obtain ⟨-, outcome⟩ | ⟨result, left, took, outcome⟩ := call_of_active c early
    · obtain ⟨clock, account, later⟩ :=
        exists_time_elapse w.idled (w.idled.stopTime + 0 - w.idled.clock)
      rw [World.elapseToDeadline, later] at outcome
      exact .inl ⟨_, clock, _, outcome⟩
    · obtain ⟨clock, account, later⟩ := exists_time_elapse w.idled (c.wait w.idled)
      rw [later] at took
      refine .inr ⟨clock, account, result, left, _, took, outcome, ?_⟩
      cases left.account.cancelled with
      | some first => exact .inr ⟨first, rfl⟩
      | none => exact .inl rfl

/-- A call fails as a cancelled run does where the run was cancelled before it, or by the deadline
that it was dropped at, or by the time it took effect. -/
theorem truthful_call {c : HostCall α} (effect : Truthful c.effect) : Truthful (call c) := by
  intro w reason fails
  cases early : w.account.cancelled with
  | some first =>
    rw [call_of_cancelled early]
    exact ⟨first, early⟩
  | none =>
    obtain ⟨reaches, outcome⟩ | ⟨result, left, took, outcome⟩ := call_of_active c early
    · rw [outcome]
      obtain ⟨first, cancelled⟩ :=
        World.exists_cancelled_elapse (World.reachesDeadline_stopTime reaches 0)
      exact ⟨first, (w.cancelled_resumed _).trans cancelled⟩
    · rw [outcome] at fails ⊢
      cases late : left.account.cancelled with
      | some first => exact ⟨first, (w.cancelled_resumed left).trans late⟩
      | none =>
        -- A failure of the effect would have cancelled the run.
        simp only [late] at fails
        have cancelled := effect (w.idled.elapse (c.wait w.idled)) reason
        rw [took, late] at cancelled
        obtain ⟨first, there⟩ := cancelled fails
        cases there

theorem orderly_pure (a : α) : Orderly (pure a : Host α) := ⟨fun _ => .inl rfl, truthful_pure a⟩

theorem orderly_getThe : Orderly (getThe World : Host World) := ⟨fun _ => .inl rfl, truthful_getThe⟩

theorem orderly_throw {e : RunError} (h : ∀ reason, e ≠ .cancelled reason) : Orderly (throw e : Host α) :=
  ⟨fun _ => .inl rfl, fun _ reason fails => absurd (Except.error.inj fails) (h reason)⟩

theorem orderly_modify {f : World → World} (h : ∀ w : World, w.account.CancelledTo (f w).account) :
    Orderly (modify f : Host PUnit) :=
  ⟨h, fun _ _ fails => by cases fails⟩

theorem Orderly.bind {action : Host α} {next : α → Host β} (first : Orderly action)
    (then_ : ∀ a, Orderly (next a)) : Orderly (action >>= next) := by
  refine ⟨?_, first.truthful.bind fun a => (then_ a).truthful⟩
  exact related_bind (fun u v => u.account.CancelledTo v.account)
    (fun early late => early.trans late) first.account fun a => (then_ a).account

theorem Orderly.map {action : Host α} (f : α → β) (h : Orderly action) : Orderly (f <$> action) :=
  ⟨fun w => by rw [run_map]; exact h.account w, h.truthful.map f⟩

private theorem orderly_block (nanos : Nat) : Orderly (block nanos) := by
  constructor
  · intro w
    rw [run_block]
    split
    · exact w.cancelledTo_elapse _
    · exact w.cancelledTo_elapse _
  · intro w reason fails
    rw [run_block] at fails ⊢
    split at fails
    next outstays =>
      rw [if_pos outstays]
      have reaches : w.reachesDeadline nanos = true := by
        unfold World.outstays at outstays
        unfold World.reachesDeadline
        cases deadline : w.deadline with
        | none => rw [deadline] at outstays; cases outstays
        | some t => simp only [deadline, decide_eq_true_eq] at outstays ⊢; omega
      exact World.exists_cancelled_elapse (World.reachesDeadline_stopTime reaches _)
    next => cases fails

private theorem orderly_contact (mode : Mode) {failure : List String → RunError}
    (h : ∀ messages reason, failure messages ≠ .cancelled reason) : Orderly (contact mode failure) := by
  cases mode with
  | pass => exact orderly_pure ()
  | fail messages => exact orderly_throw (h messages)
  | cancel reason => exact orderly_modify fun w => .inr ⟨reason, rfl⟩
  | block nanos => exact orderly_block nanos

theorem orderly_lookup (query : Cache → α) : Orderly (lookup query) :=
  orderly_getThe.bind fun _ => (orderly_contact _ fun _ _ => RunError.noConfusion).bind fun _ =>
    orderly_getThe.bind fun _ => orderly_pure _

theorem orderly_onStore (action : StoreAction α) : Orderly (onStore action) := by
  have contacted (mode : Mode) : Orderly (contactStore mode) :=
    orderly_contact mode fun _ _ => RunError.noConfusion
  constructor
  · intro w
    have here := (contacted w.storeMode).account w
    rw [run_onStore]
    rcases outcome : (contactStore w.storeMode).run w with ⟨_ | _, left⟩
    · rw [outcome] at here
      exact here
    · rw [outcome] at here
      exact here
  · intro w reason fails
    have here := (contacted w.storeMode).truthful w reason
    rw [run_onStore] at fails ⊢
    rcases outcome : (contactStore w.storeMode).run w with ⟨_ | _, left⟩
    · rw [outcome] at here fails
      exact here (congrArg _ (Except.error.inj fails))
    · rw [outcome] at fails
      change (left.store.run left.now action).1.mapError RunError.store = _ at fails
      cases result : (left.store.run left.now action).1 with
      | ok a => rw [result] at fails; cases fails
      | error e => rw [result] at fails; cases fails

theorem orderly_record (c : RestCall) : Orderly (record c) := by
  constructor
  · intro w
    rw [run_record]
    exact .inl rfl
  · intro w reason fails
    rw [run_record] at fails
    cases failure : w.rest.failure with
    | some message => simp [failure] at fails
    | none => simp [failure] at fails

theorem orderly_makeMessage (data : ResponseData) : Orderly (makeMessage data) :=
  ⟨fun _ => .inl rfl, fun _ _ fails => by cases fails⟩

end Host

end GuildSandbox

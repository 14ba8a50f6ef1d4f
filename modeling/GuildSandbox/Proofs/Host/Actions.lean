import GuildSandbox.Host.Link

set_option autoImplicit false
set_option relaxedAutoImplicit false

namespace GuildSandbox.Host

universe u

variable {α β : Type} {γ : Type u} {w : World} {reason : CancelReason}

theorem run_bind (w : World) (action : Host α) (next : α → Host β) :
    (action >>= next).run w = match action.run w with
      | (.ok a, left) => (next a).run left
      | (.error e, left) => (.error e, left) := by
  have same : action.run w = (ExceptT.run action) w := rfl
  change ExceptT.bind action next w = _
  rw [same]
  simp only [ExceptT.bind, ExceptT.mk, bind, StateT.bind, ExceptT.run]
  rcases action w with ⟨_ | _, left⟩ <;> rfl

theorem run_bind_of_error {action : Host α} {e : RunError} {left : World}
    (fails : action.run w = (.error e, left)) (next : α → Host β) :
    (action >>= next).run w = (.error e, left) := by
  rw [run_bind, fails]

theorem run_ofExcept (w : World) (result : Except RunError α) :
    Host.run (ofExcept result) w = (result, w) := by
  cases result <;> rfl

theorem run_map (w : World) (f : α → β) (action : Host α) :
    (f <$> action).run w = ((action.run w).1.map f, (action.run w).2) := by
  rw [map_eq_pure_bind, run_bind]
  rcases action.run w with ⟨_ | _, left⟩ <;> rfl

theorem run_bind_giving (w : World) (action : Host α) (f : α → β) :
    ((action >>= fun a => pure (f a)).run w).2 = (action.run w).2 := by
  rw [run_bind]
  rcases action.run w with ⟨_ | _, left⟩
  · rfl
  · rfl

/-- A transitive relation between the world before and the world after passes from two actions to the
one after the other, which may have failed before the second. -/
theorem related_bind (rel : World → World → Prop)
    (trans : ∀ {u v t : World}, rel u v → rel v t → rel u t) {action : Host α} {next : α → Host β}
    (first : ∀ w, rel w (action.run w).2) (rest : ∀ a w, rel w ((next a).run w).2) (w : World) :
    rel w ((action >>= next).run w).2 := by
  have here := first w
  rw [run_bind]
  rcases outcome : action.run w with ⟨e | a, left⟩
  · rw [outcome] at here
    exact here
  · rw [outcome] at here
    exact trans here (rest a left)

theorem run_getThe (w : World) : Host.run (getThe World) w = (.ok w, w) := rfl

private theorem run_ensureActive (w : World) : ensureActive.run w =
    (w.account.ensureActive, w) := by
  rw [ensureActive, run_bind, run_getThe]
  exact run_ofExcept w _

theorem run_settle (c : HostCall α) (w : World) :
    c.settle.run w = if 0 < c.wait w && w.reachesDeadline (c.wait w) then
        (.dropped ((w.elapseToDeadline 0).account.signal.getD .totalDurationLimit),
          w.elapseToDeadline 0)
      else
        (.finished (c.effect.run (w.elapse (c.wait w))).1,
          (c.effect.run (w.elapse (c.wait w))).2) := by
  unfold HostCall.settle
  simp only [StateT.run_bind, StateT.run_get, pure_bind]
  split
  · rfl
  · rfl

theorem run_call (c : HostCall α) (w : World) :
    (call c).run w = match w.account.cancelled with
      | some reason => (.error (.cancelled reason), w)
      | none => match c.settle.run w.idled with
        | (.dropped reason, left) => (.error (.cancelled reason), w.resumed left)
        | (.finished result, left) => match (w.resumed left).account.cancelled with
          | some reason => (.error (.cancelled reason), w.resumed left)
          | none => (result, w.resumed left) := by
  rw [call, run_bind, run_ensureActive, Account.ensureActive]
  cases w.account.cancelled with
  | some reason => rfl
  | none =>
    have entered : Host.run (set w.idled) w = (.ok (), w.idled) := rfl
    have lifted : Host.run (liftM c.settle) w.idled =
      (.ok (c.settle.run w.idled).1, (c.settle.run w.idled).2) := rfl
    simp only [run_bind, run_getThe, entered, lifted]
    rcases c.settle.run w.idled with ⟨settled, left⟩
    have resume : Host.run (modify w.resumed) left = (.ok (), w.resumed left) := rfl
    simp only [resume]
    cases settled with
    | dropped reason => rfl
    | finished result =>
      simp only [run_bind, run_ensureActive, Account.ensureActive]
      cases (w.resumed left).account.cancelled with
      | some reason => rfl
      | none => exact run_ofExcept _ result

theorem call_of_cancelled (cancelled : w.account.cancelled = some reason) (c : HostCall α) :
    (call c).run w = (.error (.cancelled reason), w) := by
  rw [run_call, cancelled]

def Keeps (observe : World → γ) (action : Host α) : Prop :=
  ∀ w, observe (action.run w).2 = observe w

variable {observe : World → γ}

theorem keeps_pure (a : α) : Keeps observe (pure a : Host α) := fun _ => rfl

theorem keeps_throw (e : RunError) : Keeps observe (throw e : Host α) := fun _ => rfl

theorem keeps_ofExcept (result : Except RunError α) : Keeps observe (ofExcept result : Host α) :=
  fun w => by rw [run_ofExcept]

theorem keeps_getThe : Keeps observe (getThe World : Host World) := fun _ => rfl

theorem keeps_modify {f : World → World} (same : ∀ w, observe (f w) = observe w) :
    Keeps observe (modify f : Host PUnit) := same

theorem Keeps.bind {action : Host α} {next : α → Host β} (first : Keeps observe action)
    (then_ : ∀ a, Keeps observe (next a)) : Keeps observe (action >>= next) :=
  related_bind (fun u v => observe v = observe u) (fun early late => late.trans early) first then_

theorem Keeps.map {action : Host α} (f : α → β) (kept : Keeps observe action) :
    Keeps observe (f <$> action) := by
  intro w
  rw [run_map]
  exact kept w

def IgnoresTime (observe : World → γ) : Prop :=
  ∀ (w : World) clock account, observe { w with clock := clock, account := account } = observe w

theorem IgnoresTime.elapse (ignores : IgnoresTime observe) (w : World) (nanos : Nat) :
    observe (w.elapse nanos) = observe w := by
  unfold World.elapse World.cancel
  split
  · exact ignores w _ _
  · exact ignores w _ _

theorem rest_ignoresTime : IgnoresTime World.rest := fun _ _ _ => rfl

theorem exists_time_elapse (w : World) (nanos : Nat) :
    ∃ clock account, w.elapse nanos = { w with clock := clock, account := account } := by
  unfold World.elapse
  split
  · exact ⟨_, _, rfl⟩
  · exact ⟨_, _, rfl⟩

/-- The deadline does not come before a call that waits so long. -/
def arrives (w : World) (nanos : Nat) : Bool := !(0 < nanos && w.reachesDeadline nanos)

/-- A call of a run that is active takes effect at some later time if the deadline does not come
first, whatever comes of it, and otherwise not at all. -/
theorem call_effect (time : IgnoresTime observe) (c : HostCall α)
    (w : World) :
    if w.account.cancelled = none ∧ arrives w (c.wait w.idled) = true then
      ∃ clock account, observe ((call c).run w).2 =
        observe (c.effect.run { w with clock := clock, account := account }).2
    else observe ((call c).run w).2 = observe w := by
  have idled : observe w.idled = observe w := time w _ _
  have resumed : ∀ left, observe (w.resumed left) = observe left := fun left => time left _ _
  have settled : observe ((call c).run w).2 = match w.account.cancelled with
      | some _ => observe w
      | none => observe (c.settle.run w.idled).2 := by
    rw [run_call]
    cases w.account.cancelled with
    | some reason => rfl
    | none =>
      rcases c.settle.run w.idled with ⟨_ | result, left⟩
      · exact resumed left
      · simp only
        split
        · exact resumed left
        · exact resumed left
  rw [settled]
  cases w.account.cancelled with
  | some reason =>
    rw [if_neg (by simp)]
  | none =>
    simp only [true_and]
    rw [run_settle]
    cases late : decide (0 < c.wait w.idled) && w.idled.reachesDeadline (c.wait w.idled) with
    | true =>
      have dropped : arrives w (c.wait w.idled) = false := congrArg Bool.not late
      rw [dropped]
      exact (time.elapse _ _).trans idled
    | false =>
      have inTime : arrives w (c.wait w.idled) = true := congrArg Bool.not late
      rw [inTime]
      obtain ⟨clock, account, later⟩ := exists_time_elapse w.idled (c.wait w.idled)
      refine ⟨clock, account, ?_⟩
      rw [later]
      rfl

theorem keeps_call (ignores : IgnoresTime observe) {c : HostCall α}
    (effect : Keeps observe c.effect) : Keeps observe (call c) := by
  intro w
  have outcome := call_effect ignores c w
  split at outcome
  · obtain ⟨clock, account, outcome⟩ := outcome
    exact outcome.trans ((effect _).trans (ignores w clock account))
  · exact outcome

theorem run_block (nanos : Nat) (w : World) : (block nanos).run w =
    if w.outstays nanos then
      (.error (.cancelled .totalDurationLimit), w.elapseToDeadline World.cancelGrace)
    else (.ok (), w.elapse nanos) := by
  rw [block, run_bind, run_getThe]
  simp only
  split
  · rfl
  · rfl

private theorem keeps_block (ignores : IgnoresTime observe) (nanos : Nat) :
    Keeps observe (block nanos) := by
  intro w
  rw [run_block]
  split
  · exact ignores.elapse w _
  · exact ignores.elapse w _

theorem keeps_contact (ignores : IgnoresTime observe) (mode : Mode)
    (failure : List String → RunError) : Keeps observe (contact mode failure) := by
  cases mode with
  | pass => exact keeps_pure ()
  | fail messages => exact keeps_throw _
  | cancel reason => exact keeps_modify fun w => ignores w _ _
  | block nanos => exact keeps_block ignores nanos

private theorem keeps_lookup (ignores : IgnoresTime observe) (query : Cache → α) :
    Keeps observe (lookup query) :=
  keeps_getThe.bind fun _ => (keeps_contact ignores _ _).bind fun _ =>
    keeps_getThe.bind fun _ => keeps_pure _

theorem run_record (c : RestCall) (w : World) :
    (record c).run w = ((match w.rest.failure with
        | some message => .error (.host message)
        | none => .ok ()),
      { w with rest := { w.rest with calls := w.rest.calls ++ [c] } }) := by
  obtain ⟨clock, epoch, account, deadline, cache, cacheMode, store, storeMode,
    ⟨calls, messagesMade, delay, failure⟩, responded⟩ := w
  cases failure with
  | none => rfl
  | some message => rfl

theorem keeps_record {c : RestCall} (same : ∀ w : World,
    observe { w with rest := { w.rest with calls := w.rest.calls ++ [c] } } = observe w) :
    Keeps observe (record c) := by
  intro w
  rw [run_record]
  exact same w

def contactStore (mode : Mode) : Host Unit :=
  contact mode fun messages => .store (.backend (RunError.chain messages))

theorem run_onStore (action : StoreAction α) (w : World) :
    (onStore action).run w = match (contactStore w.storeMode).run w with
      | (.ok _, left) => ((left.store.run left.now action).1.mapError .store,
        { left with store := (left.store.run left.now action).2 })
      | (.error e, left) => (.error e, left) := by
  rw [onStore, run_bind, run_getThe]
  simp only [run_bind, run_getThe, contactStore]
  rcases (contact w.storeMode _).run w with ⟨_ | _, left⟩
  · rfl
  · exact run_ofExcept _ _

def IgnoresStore (observe : World → γ) : Prop :=
  ∀ (w : World) store, observe { w with store := store } = observe w

theorem keeps_onStore (time : IgnoresTime observe) (stored : IgnoresStore observe)
    (action : StoreAction α) : Keeps observe (onStore action) := by
  refine keeps_getThe.bind fun w => (keeps_contact time _ _).bind fun _ => ?_
  intro left
  rw [run_bind, run_getThe]
  exact (keeps_ofExcept _ _).trans (stored left _)

theorem keeps_immediateLookup (ignores : IgnoresTime observe) (query : Cache → α) :
    Keeps observe (call (.immediate (lookup query))) := by
  have effect : Keeps observe (lookup query) := keeps_lookup ignores query
  exact keeps_call (c := .immediate (lookup query)) ignores effect

end GuildSandbox.Host

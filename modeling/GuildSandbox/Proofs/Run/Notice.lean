import GuildSandbox.Proofs.Capability.Answered
import GuildSandbox.Proofs.Capability.Recorded
import GuildSandbox.Proofs.Script.History

/-!
One failure, one message.

The service gets from a dispatch what the script asked it for, and one message more if the run
failed. That message continues the answers of the script: it responds to the interaction if the
script has not, and follows up on the response otherwise.
-/

set_option autoImplicit false
set_option relaxedAutoImplicit false

namespace GuildSandbox

private theorem RestCall.isAnswer_and_isResponse (c : RestCall) :
    (c.isAnswer && c.isResponse) = c.isResponse := by
  cases c <;> rfl

private theorem Delivery.acknowledges_of_accepted {d : Delivery} (accepted : d.accepted = true) :
    d.acknowledges = d.call.isResponse := by
  rw [acknowledges, accepted, Bool.and_true]

/-- At most one of the calls responds to the interaction, and it comes before every followup. -/
structure AnswersInOrder (calls : List RestCall) : Prop where
  oneResponse : calls.countP RestCall.isResponse ≤ 1
  responseFirst : ∀ before c later, calls = before ++ c :: later → c.isFollowup = true →
    ∃ first ∈ before, first.isResponse = true

namespace AnswersInOrder

variable {calls : List RestCall}

private theorem of_answers (answers : AnswersInOrder (calls.filter RestCall.isAnswer)) :
    AnswersInOrder calls where
  oneResponse := by
    have counted := answers.oneResponse
    simp only [List.countP_filter, Bool.and_comm, RestCall.isAnswer_and_isResponse] at counted
    exact counted
  responseFirst := by
    rintro before c later rfl followup
    have split : (before ++ c :: later).filter RestCall.isAnswer =
        before.filter RestCall.isAnswer ++ c :: later.filter RestCall.isAnswer := by
      rw [List.filter_append, List.filter_cons_of_pos]
      rw [RestCall.isAnswer, followup, Bool.or_true]
    obtain ⟨first, earlier, response⟩ := answers.responseFirst _ c _ split followup
    exact ⟨first, (List.mem_filter.mp earlier).1, response⟩

private theorem concat (inOrder : AnswersInOrder calls) {c : RestCall}
    (followup : c.isFollowup = calls.any RestCall.isResponse)
    (response : c.isResponse = !calls.any RestCall.isResponse) :
    AnswersInOrder (calls ++ [c]) where
  oneResponse := by
    rw [List.countP_append, List.countP_singleton, response]
    cases responded : calls.any RestCall.isResponse with
    | true => exact inOrder.oneResponse
    | false =>
      have none : calls.countP RestCall.isResponse = 0 := by
        rw [List.countP_eq_zero]
        exact List.any_eq_false.mp responded
      rw [none]
      decide
  responseFirst := by
    intro before other later split isFollowup
    -- The followup is the call that was added, or one that was there.
    rcases List.eq_nil_or_concat later with rfl | ⟨rest, last, rfl⟩
    · obtain ⟨rfl, same⟩ := List.append_inj' split rfl
      obtain rfl : c = other := List.head_eq_of_cons_eq same
      rw [followup, List.any_eq_true] at isFollowup
      exact isFollowup
    · rw [List.concat_eq_append, ← List.cons_append, ← List.append_assoc] at split
      obtain ⟨rfl, -⟩ := List.append_inj' split rfl
      exact inOrder.responseFirst before other rest rfl isFollowup

end AnswersInOrder

namespace World

variable {inv : Invocation} {w : World}

private theorem served_run (inv : Invocation) (w : World) (events : List RunEvent) :
    w.served inv (events.map .run) = w.after inv events := by
  rw [served, List.foldl_map]
  rfl

private theorem accepted_of_mem_deliveries (accepts : w.rest.failure = none)
    {events : List RunEvent}
    {d : Delivery} (delivered : d ∈ w.deliveries inv (events.map .run)) : d.accepted = true := by
  induction events generalizing w with
  | nil => cases delivered
  | cons event later ih =>
    rw [List.map_cons, deliveries, List.mem_append] at delivered
    obtain here | there := delivered
    · obtain ⟨c, -, rfl⟩ := List.mem_map.mp here
      rw [accepts]
      rfl
    · exact ih ((w.continues_step inv event).failure.trans accepts) there

private theorem inOrder_deliveries {events : List ServedEvent} (fresh : w.responded = false)
    (accepted : ∀ d ∈ w.deliveries inv events, d.accepted = true) :
    AnswersInOrder ((w.deliveries inv events).map Delivery.call) where
  oneResponse := by
    have bound := w.acknowledged_le inv events
    rw [fresh, if_neg Bool.false_ne_true] at bound
    rw [List.countP_map]
    refine Nat.le_trans (List.countP_mono_left fun d mem response => ?_) bound
    rw [Delivery.acknowledges_of_accepted (accepted d mem)]
    exact response
  responseFirst := by
    intro before c later split followup
    obtain ⟨earlier, rest, log, rfl, cut⟩ := List.map_eq_append_iff.mp split
    obtain ⟨d, after, rfl, rfl, rfl⟩ := List.map_eq_cons_iff.mp cut
    have kind := (w.kind_of_split inv events log).1
    rw [followup, fresh, Bool.false_or, eq_comm, List.any_eq_true] at kind
    obtain ⟨first, mem, acknowledges⟩ := kind
    exact ⟨first.call, List.mem_map_of_mem mem, (Bool.and_eq_true_iff.mp acknowledges).1⟩

private theorem calls_after (inv : Invocation) (fresh : w.responded = false)
    (accepts : w.rest.failure = none) (events : List RunEvent) :
    ∃ made, (w.after inv events).rest.calls = w.rest.calls ++ made ∧
      (w.after inv events).responded = made.any RestCall.isResponse ∧ AnswersInOrder made := by
  -- What is added to the record is compared with what was delivered through its answers alone.
  obtain ⟨made, grown⟩ := (w.continues_after inv events).calls
  have accepted : ∀ d ∈ w.deliveries inv (events.map .run), d.accepted = true :=
    fun d => accepted_of_mem_deliveries accepts
  have answers : made.filter RestCall.isAnswer =
      (w.deliveries inv (events.map .run)).map Delivery.call := by
    have recorded := w.answers_served inv (events.map .run)
    rw [served_run, World.answers, ← grown, List.filter_append] at recorded
    exact List.append_cancel_left recorded
  refine ⟨made, grown.symm, ?_, .of_answers ?_⟩
  · have responded := w.responded_served inv (events.map .run)
    rw [served_run, fresh, Bool.false_or] at responded
    have responses : made.any RestCall.isResponse =
        (w.deliveries inv (events.map .run)).any fun d => d.call.isResponse := by
      rw [← Function.comp_def, ← List.any_map, ← answers, List.any_filter]
      simp only [RestCall.isAnswer_and_isResponse]
    rw [responded, responses, Bool.eq_iff_iff, List.any_eq_true, List.any_eq_true]
    refine exists_congr fun d => and_congr_right fun delivered => ?_
    rw [Delivery.acknowledges_of_accepted (accepted d delivered)]
  · rw [answers]
    exact inOrder_deliveries fresh accepted

end World

private theorem CompiledScript.calls_execute (script : CompiledScript) (inv : Invocation)
    (surface : Surface) {w : World} (fresh : w.responded = false)
    (accepts : w.rest.failure = none) :
    let left := (script.execute inv.capabilities surface w).2
    ∃ made, left.rest.calls = w.rest.calls ++ made ∧ left.rest.delay = w.rest.delay ∧
      left.responded = made.any RestCall.isResponse ∧ AnswersInOrder made := by
  intro left
  obtain ⟨events, account, history⟩ := script.exists_history inv surface w
  obtain ⟨begun, started⟩ : ∃ begun : World,
      begun = { w with account := w.account.begin w.clock } := ⟨_, rfl⟩
  have same : begun.rest = w.rest ∧ begun.responded = w.responded := by
    rw [started]
    exact ⟨rfl, rfl⟩
  rw [← started] at history
  obtain ⟨made, calls, responded, inOrder⟩ :=
    World.calls_after inv (same.2.trans fresh) (same.1 ▸ accepts) events
  have delay := (begun.continues_after inv events).delay
  rw [same.1] at calls delay
  rw [show left = _ from history]
  exact ⟨made, calls, delay, responded, inOrder⟩

namespace Dispatcher

private theorem dispatch_eq (d : Dispatcher) (script : CompiledScript) (inv : Invocation)
    (w : World) :
    let ran := script.execute inv.capabilities (Surface.standard inv d.storeLimits) (d.opened w)
    (d.dispatch script inv w).1.outcome = ran.1 ∧ (d.dispatch script inv w).2.rest =
      if ran.1 = .completed then ran.2.rest else (d.notified inv.interaction ran.2).rest := by
  intro ran
  refine ⟨rfl, ?_⟩
  have rest : (d.dispatch script inv w).2.rest =
      (if ran.1.isSuccess then ran.2 else d.notified inv.interaction ran.2).rest := rfl
  rw [rest]
  cases ran.1 with
  | completed => rfl
  | _ => rfl

private theorem kind_of_failureCall (d : Dispatcher) (i : Interaction) (responded : Bool) :
    (d.failureCall i responded).isFollowup = responded ∧
      (d.failureCall i responded).isResponse = !responded := by
  cases responded <;> exact ⟨rfl, rfl⟩

/-- The service gets from a dispatch what the script asked it for, and one message more after a run
that failed, which is a followup exactly if the script has responded. -/
theorem dispatch_calls (d : Dispatcher) (script : CompiledScript) (inv : Invocation) (w : World)
    (accepts : w.rest.failure = none)
    (inTime : w.rest.delay = 0 ∨ w.rest.delay < d.budget.maxTotal) :
    let ran := script.execute inv.capabilities (Surface.standard inv d.storeLimits) (d.opened w)
    let done := d.dispatch script inv w
    let notice : ResponseData :=
      { content := some d.errorMessage, embeds := [], ephemeral := true }
    ∃ made told, ran.2.rest.calls = w.rest.calls ++ made ∧
      done.2.rest.calls = w.rest.calls ++ (made ++ told) ∧
      done.1.outcome = ran.1 ∧
      (done.1.outcome = .completed → told = []) ∧
      (done.1.outcome ≠ .completed → told =
        [if made.any RestCall.isResponse then .followup inv.interaction.applicationId notice
        else .interactionResponse inv.interaction.id
          { kind := .channelMessageWithSource, data := some notice }]) ∧
      AnswersInOrder (made ++ told) := by
  intro ran done notice
  obtain ⟨outcome, rest⟩ := d.dispatch_eq script inv w
  obtain ⟨made, calls, delay, responded, inOrder⟩ :=
    script.calls_execute inv (Surface.standard inv d.storeLimits)
      (w := d.opened w) rfl accepts
  by_cases completed : ran.1 = .completed
  · refine ⟨made, [], calls, ?_, outcome, fun _ => rfl, fun failed => ?_, ?_⟩
    · rw [if_pos completed] at rest
      rw [rest, calls, List.append_nil]
      rfl
    · exact absurd (outcome.trans completed) failed
    · rw [List.append_nil]
      exact inOrder
  · refine ⟨made, [d.failureCall inv.interaction ran.2.responded], calls, ?_, outcome, ?_, ?_, ?_⟩
    · rw [if_neg completed] at rest
      rw [rest, d.calls_notified, if_pos (delay ▸ inTime), calls, List.append_assoc]
      rfl
    · exact fun done => absurd (outcome.symm.trans done) completed
    · intro _
      rw [responded]
      rfl
    · obtain ⟨followup, response⟩ := d.kind_of_failureCall inv.interaction ran.2.responded
      exact inOrder.concat (followup.trans responded) (response.trans (congrArg Bool.not responded))

theorem shelteredSource_told :
    let d : Dispatcher := { errorMessage := "failed" }
    let script := (shelteredSource.compile {}).toOption.getD default
    let done := d.dispatch script plainInvocation freshWorld
    freshWorld.rest.failure = none ∧ freshWorld.rest.delay = 0 ∧
      done.1.outcome = .runtimeError (.permissionDenied "KICK_MEMBERS") ∧
      ∃ response, response.isResponse = true ∧ done.2.rest.calls =
        [response, .followup "" { content := some "failed", ephemeral := true }] := by
  intro d script done
  have facts : done.1.outcome = .runtimeError (.permissionDenied "KICK_MEMBERS") ∧
      (script.execute plainInvocation.capabilities (Surface.standard plainInvocation d.storeLimits)
        (d.opened freshWorld)).2.rest.calls.map RestCall.isResponse = [true] := by decide +kernel
  obtain ⟨failed, asked⟩ := facts
  obtain ⟨made, told, calls, all, -, -, notice, -⟩ :=
    d.dispatch_calls script plainInvocation freshWorld rfl (.inl rfl)
  rw [calls] at asked
  obtain ⟨response, rfl, responds⟩ := List.map_eq_singleton_iff.mp asked
  have followup := notice (by rw [failed]; decide)
  rw [List.any_cons, responds, Bool.true_or, if_pos rfl] at followup
  exact ⟨rfl, rfl, failed, response, responds, by rw [all, followup]; rfl⟩

end Dispatcher

end GuildSandbox

import GuildSandbox.Proofs.Capability.Cancelled
import GuildSandbox.Proofs.Capability.Kept
import GuildSandbox.Run.Dispatch

/-!
One answer to an interaction.

The service takes one response to an interaction, and everything after it has to be a followup. What
the service accepts or refuses, and when the run is cancelled, is not up to the script: a run is
followed here through any of its events, with answers that are cut short from outside and a service
that changes its mind.
-/

set_option autoImplicit false
set_option relaxedAutoImplicit false

namespace GuildSandbox

variable {α : Type} {w : World} {inv : Invocation}

namespace RestCall

def isResponse : RestCall → Bool
  | .interactionResponse _ _ => true
  | _ => false

def isFollowup : RestCall → Bool
  | .followup _ _ => true
  | _ => false

def isAnswer (c : RestCall) : Bool := c.isResponse || c.isFollowup

end RestCall

/-- A cancellation that comes from outside while a call to the host is under way. -/
inductive Interference where
  /-- It comes while the call waits, which drops the call. -/
  | early (nanos : Nat) (reason : CancelReason)
  /-- It comes when the call has taken effect and has not returned. -/
  | late (reason : CancelReason)

def HostCall.metBy (c : HostCall α) : Option Interference → HostCall α
  | none => c
  | some (.early nanos reason) =>
    { wait := fun _ => nanos
      effect := do
        modify fun w => w.cancel reason
        throw (.cancelled reason) }
  | some (.late reason) =>
    { c with effect := fun w => ((c.effect.run w).1, (c.effect.run w).2.cancel reason) }

inductive Answer where
  | message (kind : ResponseKind) (payload : ResponsePayload)
  | deferral

namespace Invocation

def initialCall (inv : Invocation) (response : InteractionResponse) : HostCall (Option Message) :=
  .service do
    let message ← Host.sendResponse inv.interaction.id response
    modify fun w => { w with responded := true }
    return message

def followupCall (inv : Invocation) (data : ResponseData) : HostCall Message :=
  .service (Host.sendFollowup inv.interaction.applicationId data)

/-- Sends a payload with a call that may be met by a cancellation. -/
def sendMet (inv : Invocation) (met : Option Interference) (kind : ResponseKind)
    (payload : ResponsePayload) : Host (Option Message) := do
  let message ←
    if (← getThe World).responded then
      some <$> Host.call ((inv.followupCall payload.toData).metBy met)
    else Host.call ((inv.initialCall { kind := kind, data := some payload.toData }).metBy met)
  return message.map inv.placed

/-- Acknowledges the interaction with a call that may be met by a cancellation. -/
def deferMet (inv : Invocation) (met : Option Interference) : Host Unit := do
  if (← getThe World).responded then pure ()
  else let _ ← Host.call ((inv.initialCall { kind := inv.deferralKind }).metBy met)

end Invocation

namespace Answer

def call : Answer → Call
  | message kind payload => .respond kind (.ok payload)
  | deferral => .defer

def give (inv : Invocation) (met : Option Interference) : Answer → Host Value
  | message kind payload => do
    return .ofView? ((← inv.sendMet met kind payload).map .message)
  | deferral => do
    inv.deferMet met
    return .unit

/-- What an answer asks the service for, before or after a response that was accepted. -/
def request? (inv : Invocation) (responded : Bool) : Answer → Option RestCall
  | message kind payload =>
    if responded then some (.followup inv.interaction.applicationId payload.toData)
    else some (.interactionResponse inv.interaction.id
      { kind := kind, data := some payload.toData })
  | deferral =>
    if responded then none
    else some (.interactionResponse inv.interaction.id { kind := inv.deferralKind })

private theorem kind_of_request? {c : RestCall} {responded : Bool} {a : Answer}
    (asked : a.request? inv responded = some c) :
    c.isFollowup = responded ∧ c.isResponse = !responded := by
  cases a <;> cases responded <;> cases asked <;> exact ⟨rfl, rfl⟩

end Answer

def World.answers (w : World) : List RestCall := w.rest.calls.filter RestCall.isAnswer

def World.answering (w : World) : List RestCall × Bool := (w.answers, w.responded)

namespace Host

private theorem answering_ignoresTime : IgnoresTime World.answering := fun _ _ _ => rfl

private theorem answering_ignoresStore : IgnoresStore World.answering := fun _ _ => rfl

/-- A cancellation that meets a call may prevent its effect, and changes nothing else about it. -/
private theorem call_metBy_effect {γ : Type} {observe : World → γ} (time : IgnoresTime observe)
    (c : HostCall α) (met : Option Interference) (w : World) :
    observe ((call (c.metBy met)).run w).2 = observe w ∨ ∃ clock account,
      observe ((call (c.metBy met)).run w).2 =
        observe (c.effect.run { w with clock := clock, account := account }).2 := by
  have effect := call_effect time (c.metBy met) w
  split at effect
  · obtain ⟨clock, account, effect⟩ := effect
    match met with
    | none => exact .inr ⟨clock, account, effect⟩
    | some (.early nanos reason) => exact .inl (effect.trans (time w _ _))
    | some (.late reason) => exact .inr ⟨clock, account, effect.trans (time _ _ _)⟩
  · exact .inl effect

private theorem run_messageOf (response : InteractionResponse) (w : World) :
    ∃ message left, (messageOf response).run w = (.ok message, left) ∧
      left.answering = w.answering := by
  unfold messageOf
  split
  all_goals exact ⟨_, _, rfl, rfl⟩

private theorem run_record_answer (w : World) {c : RestCall} (answer : c.isAnswer = true) :
    ∃ left, left.answers = w.answers ++ [c] ∧ left.responded = w.responded ∧
      (record c).run w = (match w.rest.failure with
        | some message => .error (.host message)
        | none => .ok (), left) := by
  refine ⟨_, ?_, ?_, run_record c w⟩
  · simp [World.answers, answer]
  · rfl

end Host

namespace Invocation

private theorem answering_initialCall (inv : Invocation) (response : InteractionResponse)
    (w : World) :
    ((inv.initialCall response).effect.run w).2.answering =
      (w.answers ++ [.interactionResponse inv.interaction.id response],
        w.responded || w.rest.failure.isNone) := by
  obtain ⟨left, answers, responded, recorded⟩ := Host.run_record_answer w
    (c := .interactionResponse inv.interaction.id response) rfl
  change (Host.run (do
      let message ← Host.sendResponse inv.interaction.id response
      modify fun w => { w with responded := true }
      return message) w).2.answering = _
  rw [Host.run_bind, Host.sendResponse, Host.run_bind, recorded]
  cases w.rest.failure with
  | some message =>
    have unanswered : left.answering = (_, _) := Prod.ext answers responded
    simpa using unanswered
  | none =>
    obtain ⟨message, shown, ran, same⟩ := Host.run_messageOf response left
    simp only [ran, Option.isNone_none, Bool.or_true]
    exact Prod.ext ((congrArg Prod.fst same).trans answers) rfl

private theorem answering_followupCall (inv : Invocation) (data : ResponseData) (w : World) :
    ((inv.followupCall data).effect.run w).2.answering =
      (w.answers ++ [.followup inv.interaction.applicationId data], w.responded) := by
  obtain ⟨left, answers, responded, recorded⟩ := Host.run_record_answer w
    (c := .followup inv.interaction.applicationId data) rfl
  change (Host.run (do
      Host.record (.followup inv.interaction.applicationId data)
      Host.makeMessage data) w).2.answering = _
  rw [Host.run_bind, recorded]
  cases w.rest.failure with
  | some message => exact Prod.ext answers responded
  | none => exact Prod.ext answers responded

end Invocation

namespace Answer

variable {a : Answer} {c : RestCall}

private theorem give_of_no_request (silent : a.request? inv w.responded = none)
    (met : Option Interference) : (a.give inv met).run w = (.ok .unit, w) := by
  cases responded : w.responded with
  | false => cases a <;> rw [responded] at silent <;> cases silent
  | true =>
    cases a with
    | message kind payload =>
      rw [responded] at silent
      cases silent
    | deferral =>
      rw [give, Host.run_bind, Invocation.deferMet, Host.run_bind, Host.run_getThe]
      simp only [responded, if_true]
      rfl

private theorem give_of_request (asked : a.request? inv w.responded = some c)
    (met : Option Interference) : ∃ (β : Type) (k : HostCall β),
      ((a.give inv met).run w).2 = ((Host.call (k.metBy met)).run w).2 ∧
      k.wait = (fun v => v.rest.delay) ∧
      ∀ clock account, (k.effect.run { w with clock := clock, account := account }).2.answering =
        (w.answers ++ [c], w.responded || w.rest.failure.isNone) := by
  cases a with
  | message kind payload =>
    have given (met : Option Interference) : (((message kind payload).give inv met).run w).2 =
        ((inv.sendMet met kind payload).run w).2 := Host.run_bind_giving w _ _
    simp only [given, Invocation.sendMet, Host.run_bind, Host.run_getThe]
    cases responded : w.responded with
    | true =>
      rw [responded] at asked
      cases asked
      refine ⟨_, inv.followupCall payload.toData, ?_, rfl, ?_⟩
      · simp only [if_true, Host.run_bind_giving, Host.run_map]
      · intro clock account
        rw [inv.answering_followupCall]
        rfl
    | false =>
      rw [responded] at asked
      cases asked
      refine ⟨_, inv.initialCall { kind := kind, data := some payload.toData }, ?_, rfl, ?_⟩
      · simp only [Bool.false_eq_true, if_false, Host.run_bind_giving]
      · intro clock account
        rw [inv.answering_initialCall]
        rfl
  | deferral =>
    have given (met : Option Interference) :
        ((deferral.give inv met).run w).2 = ((inv.deferMet met).run w).2 :=
      Host.run_bind_giving w _ _
    simp only [given, Invocation.deferMet, Host.run_bind, Host.run_getThe]
    cases responded : w.responded with
    | true =>
      rw [responded] at asked
      cases asked
    | false =>
      rw [responded] at asked
      cases asked
      refine ⟨_, inv.initialCall { kind := inv.deferralKind }, ?_, rfl, ?_⟩
      · simp only [Bool.false_eq_true, if_false, Host.run_bind_giving]
      · intro clock account
        rw [inv.answering_initialCall]
        rfl

/-- What an answer does to the answers of a run: nothing, or it puts its request on record, and then
the interaction counts as answered if the service accepts it. -/
private theorem answering_give (a : Answer) (inv : Invocation) (met : Option Interference)
    (w : World) :
    ((a.give inv met).run w).2.answering = w.answering ∨
      ∃ c, a.request? inv w.responded = some c ∧ ((a.give inv met).run w).2.answering =
        (w.answers ++ [c], w.responded || w.rest.failure.isNone) := by
  cases asked : a.request? inv w.responded with
  | none => exact .inl (by rw [give_of_no_request asked])
  | some c =>
    obtain ⟨β, k, given, -, recorded⟩ := give_of_request asked met
    rw [given]
    obtain same | ⟨clock, account, effect⟩ :=
      Host.call_metBy_effect Host.answering_ignoresTime k met w
    · exact .inl same
    · exact .inr ⟨c, rfl, effect.trans (recorded clock account)⟩

/-- An answer that nothing meets reaches the service, in a run that is active and before its
deadline. -/
private theorem answers_give (active : w.account.cancelled = none)
    (inTime : Host.arrives w w.rest.delay = true) (a : Answer) (inv : Invocation) :
    ((a.give inv none).run w).2.answers =
      w.answers ++ (a.request? inv w.responded).toList := by
  cases asked : a.request? inv w.responded with
  | none =>
    rw [give_of_no_request asked]
    exact (List.append_nil _).symm
  | some c =>
    obtain ⟨β, k, given, wait, recorded⟩ := give_of_request asked none
    have effect := Host.call_effect Host.answering_ignoresTime k w
    rw [wait, if_pos ⟨active, inTime⟩] at effect
    obtain ⟨clock, account, effect⟩ := effect
    rw [given]
    exact congrArg Prod.fst (effect.trans (recorded clock account))

end Answer

/-- An event in the life of a run whose answers may be cut short and whose service may change its
mind. -/
inductive ServedEvent where
  | run (event : RunEvent)
  /-- The script answers, and the run may be cancelled meanwhile. -/
  | answer (a : Answer) (met : Option Interference)
  /-- The service takes another time from now on, and accepts calls or fails them. -/
  | service (delay : Nat) (failure : Option String)

/-- An answer that arrived at the service, and whether the service took it. -/
structure Delivery where
  call : RestCall
  accepted : Bool
  deriving DecidableEq

namespace Delivery

/-- The interaction is answered by the delivery: it responds, and was accepted. -/
def acknowledges (d : Delivery) : Bool := d.call.isResponse && d.accepted

end Delivery

namespace World

def serve (inv : Invocation) (w : World) : ServedEvent → World
  | .run event => w.step inv event
  | .answer a met => ((a.give inv met).run w).2
  | .service delay failure => { w with rest := { w.rest with delay := delay, failure := failure } }

def served (inv : Invocation) (w : World) (events : List ServedEvent) : World :=
  events.foldl (serve inv) w

def delivered (inv : Invocation) (w : World) (event : ServedEvent) : List Delivery :=
  ((w.serve inv event).answers.drop w.answers.length).map fun c => ⟨c, w.rest.failure.isNone⟩

def deliveries (inv : Invocation) (w : World) : List ServedEvent → List Delivery
  | [] => []
  | event :: later => w.delivered inv event ++ (w.serve inv event).deliveries inv later

end World

namespace Host

private theorem keeps_record_of_noAnswer {c : RestCall} (other : c.isAnswer = false) :
    Keeps World.answering (record c) :=
  keeps_record fun w => by simp [World.answering, World.answers, other]

end Host

private theorem Call.isAnswer_of_mutation {guildId : String} {c : Call} {r : Requirement}
    {rest : RestCall}
    (mutates : c.mutation? guildId = some (r, rest)) : rest.isAnswer = false := by
  unfold mutation? at mutates
  split at mutates
  all_goals
    cases mutates
    try rfl

private theorem Call.keeps_answering {c : Call} (other : c.isAnswer = false) :
    Host.Keeps World.answering (c.perform inv) := by
  refine Call.keeps_perform_of Host.answering_ignoresTime Host.answering_ignoresStore ?_ ?_ ?_
  · intro answer
    rw [other] at answer
    cases answer
  · intro r rest mutates
    exact Host.keeps_record_of_noAnswer (isAnswer_of_mutation mutates)
  · intro channelId messageId emoji _
    exact Host.keeps_record_of_noAnswer rfl

/-- Between two worlds the run has not answered, or once: with a followup when the interaction was
answered, and with a response when it was not, which answers the interaction if it is accepted. -/
def World.AnswersOnce (w left : World) : Prop :=
  left.answering = w.answering ∨ ∃ c : RestCall, c.isFollowup = w.responded ∧
    c.isResponse = (!w.responded) ∧
    left.answering = (w.answers ++ [c], w.responded || w.rest.failure.isNone)

private theorem Answer.answersOnce_give (a : Answer) (inv : Invocation) (met : Option Interference)
    (w : World) : w.AnswersOnce ((a.give inv met).run w).2 := by
  obtain same | ⟨c, asked, recorded⟩ := a.answering_give inv met w
  · exact .inl same
  · obtain ⟨followup, response⟩ := kind_of_request? asked
    exact .inr ⟨c, followup, response, recorded⟩

private theorem Call.answersOnce_perform (c : Call) (inv : Invocation) (w : World) :
    w.AnswersOnce ((c.perform inv).run w).2 := by
  cases answer : c.isAnswer with
  | false => exact .inl (c.keeps_answering answer w)
  | true =>
    cases c with
    | respond kind payload =>
      cases payload with
      | error e => exact .inl rfl
      | ok payload => exact (Answer.message kind payload).answersOnce_give inv none w
    | defer => exact Answer.deferral.answersOnce_give inv none w
    | _ => cases answer

namespace World

private theorem answersOnce_serve (inv : Invocation) (w : World) (event : ServedEvent) :
    w.AnswersOnce (w.serve inv event) := by
  cases event with
  | answer a met => exact a.answersOnce_give inv met w
  | service delay failure => exact .inl rfl
  | run event =>
    cases event with
    | call view name args =>
      rw [serve, step]
      split
      next c _ => exact c.answersOnce_perform inv w
      next => exact .inl rfl
    | cancel reason => exact .inl rfl
    | steps n => exact .inl rfl
    | elapse nanos => exact .inl (Host.answering_ignoresTime.elapse w nanos)
    | cache change => exact .inl rfl

private theorem delivered_cases (inv : Invocation) (w : World) (event : ServedEvent) :
    (w.delivered inv event = [] ∧ (w.serve inv event).answers = w.answers ∧
      (w.serve inv event).responded = w.responded) ∨
    ∃ d : Delivery, w.delivered inv event = [d] ∧
      (w.serve inv event).answers = w.answers ++ [d.call] ∧
      (w.serve inv event).responded = (w.responded || d.acknowledges) ∧
      d.call.isFollowup = w.responded ∧ d.call.isResponse = (!w.responded) := by
  obtain same | ⟨c, followup, response, recorded⟩ := w.answersOnce_serve inv event
  · have answers : (w.serve inv event).answers = w.answers := congrArg Prod.fst same
    refine .inl ⟨?_, answers, congrArg Prod.snd same⟩
    rw [delivered, answers, List.drop_length, List.map_nil]
  · have answers : (w.serve inv event).answers = w.answers ++ [c] := congrArg Prod.fst recorded
    refine .inr ⟨⟨c, w.rest.failure.isNone⟩, ?_, answers, ?_, followup, response⟩
    · rw [delivered, answers, List.drop_left]
      rfl
    · rw [show (w.serve inv event).responded = _ from congrArg Prod.snd recorded,
        Delivery.acknowledges, response]
      cases w.responded <;> rfl

theorem answers_served (inv : Invocation) (w : World) (events : List ServedEvent) :
    (w.served inv events).answers = w.answers ++ (w.deliveries inv events).map Delivery.call := by
  induction events generalizing w with
  | nil => exact (List.append_nil _).symm
  | cons event later ih =>
    have stepped : w.served inv (event :: later) = (w.serve inv event).served inv later := rfl
    rw [stepped, ih, deliveries, List.map_append, ← List.append_assoc]
    obtain ⟨none, same, -⟩ | ⟨d, one, recorded, -⟩ := w.delivered_cases inv event
    · rw [none, same, List.map_nil, List.append_nil]
    · rw [one, recorded]
      rfl

/-- The interaction is answered when it was before, or a response has been accepted. -/
theorem responded_served (inv : Invocation) (w : World) (events : List ServedEvent) :
    (w.served inv events).responded =
      (w.responded || (w.deliveries inv events).any Delivery.acknowledges) := by
  induction events generalizing w with
  | nil => exact (Bool.or_false _).symm
  | cons event later ih =>
    have stepped : w.served inv (event :: later) = (w.serve inv event).served inv later := rfl
    rw [stepped, ih, deliveries, List.any_append, ← Bool.or_assoc]
    congr 1
    obtain ⟨none, -, same⟩ | ⟨d, one, -, responded, -⟩ := w.delivered_cases inv event
    · rw [none, same]
      exact (Bool.or_false _).symm
    · rw [one, responded, List.any_cons, List.any_nil, Bool.or_false]

/-- Every answer is a followup or a response, according to whether a response has been accepted
before it. -/
theorem kind_of_split (inv : Invocation) (w : World) (events : List ServedEvent)
    {before later : List Delivery} {d : Delivery}
    (split : w.deliveries inv events = before ++ d :: later) :
    d.call.isFollowup = (w.responded || before.any Delivery.acknowledges) ∧
      d.call.isResponse = !(w.responded || before.any Delivery.acknowledges) := by
  induction events generalizing w before with
  | nil => cases before <;> cases split
  | cons event rest ih =>
    rw [deliveries] at split
    obtain ⟨none, -, same⟩ | ⟨first, one, -, responded, followup, response⟩ :=
      w.delivered_cases inv event
    · rw [none, List.nil_append] at split
      rw [← same]
      exact ih _ split
    · rw [one] at split
      cases before with
      | nil =>
        cases split
        rw [List.any_nil, Bool.or_false]
        exact ⟨followup, response⟩
      | cons head before =>
        obtain ⟨rfl, remaining⟩ := List.cons.inj split
        rw [List.any_cons, ← Bool.or_assoc, ← responded]
        exact ih _ remaining

theorem acknowledged_le (inv : Invocation) (w : World) (events : List ServedEvent) :
    (w.deliveries inv events).countP Delivery.acknowledges ≤ if w.responded then 0 else 1 := by
  induction events generalizing w with
  | nil => exact Nat.zero_le _
  | cons event later ih =>
    have rest := ih (w.serve inv event)
    rw [deliveries, List.countP_append]
    obtain ⟨none, -, same⟩ | ⟨d, one, -, responded, -, response⟩ := w.delivered_cases inv event
    · rw [none, List.countP_nil, Nat.zero_add, ← same]
      exact rest
    · rw [responded] at rest
      rw [one, List.countP_singleton]
      cases answered : w.responded with
      | true =>
        have refused : d.acknowledges = false := by
          rw [Delivery.acknowledges, response, answered]
          rfl
        simpa [refused, answered] using rest
      | false =>
        rw [answered, Bool.false_or] at rest
        cases taken : d.acknowledges with
        | true =>
          rw [taken, if_pos rfl] at rest
          rw [if_pos rfl, if_neg Bool.false_ne_true]
          omega
        | false => simpa [taken] using rest

end World

namespace Dispatcher

/-- What the user of a run that failed is sent, by whether the interaction is answered. -/
def failureCall (d : Dispatcher) (i : Interaction) (responded : Bool) : RestCall :=
  if responded then .followup i.applicationId d.failureData
  else .interactionResponse i.id { kind := .channelMessageWithSource, data := some d.failureData }

private theorem isAnswer_failureCall (d : Dispatcher) (i : Interaction) (responded : Bool) :
    (d.failureCall i responded).isAnswer = true := by
  cases responded <;> rfl

private theorem calls_notify (d : Dispatcher) (i : Interaction) (w : World) :
    ((d.notify i).run w).2.rest.calls = w.rest.calls ++ [d.failureCall i w.responded] := by
  rw [notify, Host.run_bind, Host.run_getThe]
  simp only
  cases w.responded with
  | true =>
    simp only [if_true, Host.sendFollowup, Host.run_bind, Host.run_record]
    cases w.rest.failure <;> rfl
  | false =>
    simp only [Bool.false_eq_true, if_false, Host.sendResponse, Host.run_bind, Host.run_record]
    cases w.rest.failure <;> rfl

/-- The message about a failure is lost when the service takes longer than a run may. -/
theorem calls_notified (d : Dispatcher) (i : Interaction) (w : World) :
    (d.notified i w).rest.calls = w.rest.calls ++
      if w.rest.delay = 0 ∨ w.rest.delay < d.budget.maxTotal then [d.failureCall i w.responded]
      else [] := by
  obtain ⟨begun, started⟩ : ∃ begun : World,
      begun = { w with deadline := some (w.clock + d.budget.maxTotal) } := ⟨_, rfl⟩
  have late : (decide (0 < begun.rest.delay) && begun.reachesDeadline begun.rest.delay) =
      !decide (w.rest.delay = 0 ∨ w.rest.delay < d.budget.maxTotal) := by
    rw [started, Bool.eq_iff_iff]
    simp [World.reachesDeadline]
    omega
  have wait : (HostCall.service (d.notify i)).wait begun = begun.rest.delay := rfl
  have unchanged : begun.rest = w.rest ∧ begun.responded = w.responded := by
    rw [started]
    exact ⟨rfl, rfl⟩
  rw [notified, ← started, Host.run_settle, wait, late, ← unchanged.1, ← unchanged.2]
  by_cases inTime : begun.rest.delay = 0 ∨ begun.rest.delay < d.budget.maxTotal
  · rw [if_pos inTime, decide_eq_true inTime]
    obtain ⟨clock, account, later⟩ := Host.exists_time_elapse begun begun.rest.delay
    change ((d.notify i).run (begun.elapse begun.rest.delay)).2.rest.calls = _
    rw [d.calls_notify, later]
  · rw [if_neg inTime, decide_eq_false inTime, List.append_nil]
    exact congrArg RestLog.calls (Host.rest_ignoresTime.elapse begun _)

private theorem answers_notified (d : Dispatcher) (i : Interaction) (w : World) :
    (d.notified i w).answers = w.answers ++
      if w.rest.delay = 0 ∨ w.rest.delay < d.budget.maxTotal then [d.failureCall i w.responded]
      else [] := by
  rw [World.answers, d.calls_notified, List.filter_append]
  split
  · rw [List.filter_cons_of_pos (d.isAnswer_failureCall i _)]
    rfl
  · rfl

end Dispatcher

/-- An interaction is answered once. Through any history of a run that begins unanswered, with
answers that are accepted, refused or cut short: at most one response is accepted; an answer is a
followup exactly if a response has been accepted before it; and the interaction counts as answered
exactly if one has been. From any point on, an answer in an active run asks the service for what is
due at that point; a deferral after a response does nothing; and the message about a failure is a
followup exactly if the interaction is answered. -/
theorem World.answered_once (inv : Invocation) (w : World) (events : List ServedEvent)
    (fresh : w.responded = false) :
    let log := w.deliveries inv events
    let now := w.served inv events
    now.answers = w.answers ++ log.map Delivery.call ∧
      log.countP Delivery.acknowledges ≤ 1 ∧
      (∀ before d later, log = before ++ d :: later →
        (d.call.isFollowup = true ↔ ∃ first ∈ before, first.acknowledges = true) ∧
        (d.call.isResponse = true ↔ ¬ ∃ first ∈ before, first.acknowledges = true)) ∧
      (now.responded = true ↔ ∃ d ∈ log, d.acknowledges = true) ∧
      (∀ a : Answer, now.account.cancelled = none → Host.arrives now now.rest.delay = true →
        ((a.give inv none).run now).2.answers =
          now.answers ++ (a.request? inv now.responded).toList) ∧
      (∀ met, now.responded = true → (Answer.deferral.give inv met).run now = (.ok .unit, now)) ∧
      ∀ d : Dispatcher, (d.notified inv.interaction now).answers = now.answers ++
        if now.rest.delay = 0 ∨ now.rest.delay < d.budget.maxTotal then
          [d.failureCall inv.interaction now.responded]
        else [] := by
  intro log now
  refine ⟨w.answers_served inv events, ?_, ?_, ?_, ?_, ?_, ?_⟩
  · have bound := w.acknowledged_le inv events
    rw [fresh] at bound
    exact bound
  · intro before d later split
    obtain ⟨followup, response⟩ := w.kind_of_split inv events split
    rw [fresh, Bool.false_or] at followup response
    rw [followup, response]
    simp
  · rw [show now.responded = _ from w.responded_served inv events, fresh]
    simp [log]
  · exact fun a active inTime => a.answers_give active inTime inv
  · intro met responded
    exact Answer.give_of_no_request (by rw [responded]; rfl) met
  · exact fun d => d.answers_notified inv.interaction now

theorem freshWorld_answered :
    let events : List ServedEvent := [.service 0 (some "down"),
      .answer (.message .updateMessage (.ofText "hi" false)) none, .service 0 none,
      .answer .deferral (some (.late .durationLimit))]
    let now := freshWorld.served plainInvocation events
    let told := ({ errorMessage := "failed" } : Dispatcher).notified plainInvocation.interaction now
    freshWorld.responded = false ∧
      (freshWorld.deliveries plainInvocation events).map Delivery.accepted = [false, true] ∧
      now.account.cancelled = some .durationLimit ∧ now.responded = true ∧
      told.answers = now.answers ++ [.followup "" { content := some "failed", ephemeral := true }] := by
  intro events now told
  obtain ⟨-, -, -, responded, -, -, notified⟩ :=
    World.answered_once plainInvocation freshWorld events rfl
  have accepted : (freshWorld.deliveries plainInvocation events).map Delivery.accepted =
      [false, true] := by decide +kernel
  have answered : now.responded = true := by
    apply responded.mpr
    decide +kernel
  refine ⟨rfl, accepted, by decide +kernel, answered, ?_⟩
  have immediate : now.rest.delay = 0 := by decide +kernel
  have followup := notified { errorMessage := "failed" }
  rw [if_pos (.inl immediate), show (freshWorld.served plainInvocation events).responded = true from
    answered] at followup
  exact followup

end GuildSandbox

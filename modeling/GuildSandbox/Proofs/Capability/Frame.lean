import GuildSandbox.Proofs.Capability.Cancelled
import GuildSandbox.Proofs.Capability.Kept
import GuildSandbox.Proofs.Host.Orderly
import GuildSandbox.Proofs.Store.Frame

/-!
What a call of a script may touch.

Every method has a reach: nothing at all, the entry under one key of a guild, or the record of the
service. Whatever a call comes to, and however it fails, what lies beyond its reach is as it was. The
cache and what the run was dispatched with are beyond the reach of all.
-/

set_option autoImplicit false
set_option relaxedAutoImplicit false

namespace GuildSandbox

inductive Reach where
  | nothing
  /-- The entry under a key of a guild. -/
  | entry (guild key : String)
  /-- The record of the service, and whether the interaction has been answered. -/
  | service
  deriving DecidableEq

def Call.reach : Call → Reach
  | .guild | .channel _ | .role _ | .member _ | .argument _ _ | .mention _ | .guildChannels _
  | .guildRoles _ | .channelMessage _ _ | .savedMessage _ | .savedMessageData _
  | .storeGet _ _ | .storeSearch _ _ => .nothing
  | .storeSet handle key _ _ | .storeDelete handle key | .storeIncrease handle key _ =>
    .entry handle.guild key
  | .respond _ _ | .defer | .kick _ | .ban _ _ | .addRole _ _ | .removeRole _ _
  | .editChannel _ _ | .deleteChannel _ | .editRole _ _ | .deleteRole _ | .deleteMessage _ _
  | .addReaction _ _ _ | .removeReaction _ _ _ _ | .clearReactions _ _ => .service

/-- The reach of a method, by the view that it is called on, its name and its arguments. -/
def View.reach : View → String → List Value → Reach
  | .context, "respond", _ | .context, "update", _ | .context, "defer", _ => .service
  | .member _, "kick", _ | .member _, "ban", _ | .member _, "add_role", _
  | .member _, "remove_role", _ => .service
  | .channel _, "edit", _ | .channel _, "delete", _ => .service
  | .role _, "edit", _ | .role _, "delete", _ => .service
  | .message _, "delete", _ | .message _, "add_reaction", _ | .message _, "remove_reaction", _
  | .message _, "clear_reactions", _ => .service
  | .store h, "set", .str key :: _ | .store h, "delete", .str key :: _
  | .store h, "increase", .str key :: _ => .entry h.guild key
  | _, _, _ => .nothing

private theorem View.reach_of_method? {view : View} {name : String} {args : List Value} {c : Call}
    (method : view.method? name args = some c) : c.reach = view.reach name args := by
  cases view with
  | context =>
    change contextMethod? name args = some c at method
    revert method
    fun_cases contextMethod? name args
    case case1 | case2 =>
      unfold answer?
      split
      all_goals
        rintro ⟨⟩
        try rfl
    all_goals
      rintro ⟨⟩
      try rfl
  | store | guild | channel | member | role | message =>
    simp only [method?, storeMethod?, guildMethod?, channelMethod?, memberMethod?, roleMethod?,
      messageMethod?] at method
    split at method
    all_goals
      cases method
      try rfl
  | user | attachment | command | savedMessage | savedMessages =>
    unfold method? at method
    split at method
    all_goals first
      | contradiction
      | (cases method; rfl)

namespace Call

variable {c : Call}

private theorem reach_of_mutation {guildId : String} {r : Requirement} {rest : RestCall}
    (mutates : c.mutation? guildId = some (r, rest)) : c.reach = .service := by
  unfold mutation? at mutates
  split at mutates
  all_goals
    cases mutates
    try rfl

private theorem reach_of_isAnswer (answer : c.isAnswer = true) : c.reach = .service := by
  cases c with
  | respond | defer => rfl
  | _ => cases answer

end Call

section Answers

variable {α β : Type} {γ : Type} {observe : World → γ}

/-- The observation depends neither on the record of the service nor on what has been answered. -/
def Host.IgnoresService (observe : World → γ) : Prop :=
  ∀ (w : World) rest responded, observe { w with rest := rest, responded := responded } = observe w

variable (time : Host.IgnoresTime observe) (service : Host.IgnoresService observe)

include service

private theorem Host.keeps_record_of_service (c : RestCall) : Host.Keeps observe (record c) :=
  keeps_record fun w => service w _ w.responded

private theorem Host.keeps_makeMessage_of_service (data : ResponseData) :
    Host.Keeps observe (makeMessage data) :=
  fun w => service w _ w.responded

include time

private theorem Invocation.keeps_initialResponse_of_service (inv : Invocation)
    (response : InteractionResponse) : Host.Keeps observe (inv.initialResponse response) := by
  have message : Host.Keeps observe (Host.messageOf response) := by
    unfold Host.messageOf
    split
    · exact (Host.keeps_makeMessage_of_service service _).map _
    · exact (Host.keeps_makeMessage_of_service service _).map _
    · exact Host.keeps_pure none
  have marked : Host.Keeps observe (modify fun w => { w with responded := true } : Host PUnit) :=
    Host.keeps_modify fun w => service w w.rest true
  refine Host.keeps_call time ?_
  exact ((Host.keeps_record_of_service service _).bind fun _ => message).bind fun _ =>
    marked.bind fun _ => Host.keeps_pure _

private theorem Call.keeps_answer_of_service {c : Call} {inv : Invocation}
    (answer : c.isAnswer = true) :
    Host.Keeps observe (c.perform inv) := by
  have initial := inv.keeps_initialResponse_of_service time service
  cases c with
  | respond kind payload =>
    refine (Host.keeps_ofExcept payload).bind fun payload => Host.Keeps.bind ?_ fun _ =>
      Host.keeps_pure _
    refine Host.keeps_getThe.bind fun w => ?_
    cases w.responded with
    | true =>
      refine Host.Keeps.bind (Host.Keeps.map some (Host.keeps_call time ?_)) fun _ =>
        Host.keeps_pure _
      exact (Host.keeps_record_of_service service _).bind fun _ =>
        Host.keeps_makeMessage_of_service service _
    | false => exact (initial _).bind fun _ => Host.keeps_pure _
  | defer =>
    refine Host.Keeps.bind (Host.keeps_getThe.bind fun w => ?_) fun _ => Host.keeps_pure _
    cases w.responded with
    | true => exact Host.keeps_pure ()
    | false => exact (initial _).bind fun _ => Host.keeps_pure _
  | _ => cases answer

end Answers

namespace Call

open Host (Keeps)

variable {c : Call} {inv : Invocation}

private theorem keeps_cache (c : Call) (inv : Invocation) : Keeps World.cache (c.perform inv) := by
  have time : Host.IgnoresTime World.cache := fun _ _ _ => rfl
  have service : Host.IgnoresService World.cache := fun _ _ _ => rfl
  exact keeps_perform_of time (fun _ _ => rfl) (keeps_answer_of_service time service)
    (fun _ rest _ => Host.keeps_record_of_service service rest)
    fun _ _ _ _ => Host.keeps_record_of_service service _

private theorem keeps_store_of_isRequest (other : c.isRequest = false) :
    Keeps World.store (c.perform inv) := by
  have time : Host.IgnoresTime World.store := fun _ _ _ => rfl
  have service : Host.IgnoresService World.store := fun _ _ _ => rfl
  refine keeps_perform_of_parts time (keeps_answer_of_service time service) (fun request => ?_)
    (fun _ rest _ => Host.keeps_record_of_service service rest)
    fun _ _ _ _ => Host.keeps_record_of_service service _
  rw [other] at request
  cases request

private theorem keeps_service (reach : c.reach ≠ .service) :
    Keeps (fun w => (w.rest, w.responded)) (c.perform inv) := by
  refine keeps_perform_of (fun _ _ _ => rfl) (fun _ _ => rfl) (fun answer => ?_)
    (fun r rest mutates => ?_) fun _ _ _ reaction => ?_
  · exact absurd (reach_of_isAnswer answer) reach
  · exact absurd (reach_of_mutation mutates) reach
  · exact absurd (congrArg Call.reach reaction) reach

private theorem keeps_responded (other : c.isAnswer = false) :
    Keeps World.responded (c.perform inv) := by
  have recorded (rest : RestCall) : Keeps World.responded (Host.record rest) :=
    Host.keeps_record fun _ => rfl
  refine keeps_perform_of (fun _ _ _ => rfl) (fun _ _ => rfl) (fun answer => ?_)
    (fun _ rest _ => recorded rest) fun _ _ _ _ => recorded _
  rw [other] at answer
  cases answer

end Call

/-- From the first world on, one call was put on record, or none and the action failed. -/
def World.SentOnce {α : Type} (w : World) (done : Except RunError α × World) : Prop :=
  (∃ c, done.2.rest.calls = w.rest.calls ++ [c]) ∨
    done.2.rest.calls = w.rest.calls ∧ ∃ e, done.1 = .error e

def Host.KeepsRecord {α : Type} (action : Host α) : Prop := Keeps (fun w => w.rest.calls) action

private theorem World.SentOnce.bind {α β : Type} {w : World} {action : Host α} {next : α → Host β}
    (first : w.SentOnce (action.run w)) (rest : ∀ a, (next a).KeepsRecord) :
    w.SentOnce ((action >>= next).run w) := by
  rw [Host.run_bind]
  rcases outcome : action.run w with ⟨e | a, left⟩
  all_goals rw [outcome] at first
  · exact first.imp_right fun none => ⟨none.1, e, rfl⟩
  · obtain ⟨c, sent⟩ | ⟨-, _, failed⟩ := first
    · exact .inl ⟨c, (rest a left).trans sent⟩
    · cases failed

namespace Host

variable {α β : Type}

def SendsOnce (action : Host α) : Prop := ∀ w : World, w.SentOnce (action.run w)

private theorem sendsOnce_throw (e : RunError) : SendsOnce (throw e : Host α) :=
  fun _ => .inr ⟨rfl, e, rfl⟩

private theorem sendsOnce_record (c : RestCall) : SendsOnce (record c) := by
  intro w
  rw [run_record]
  exact .inl ⟨c, rfl⟩

private theorem SendsOnce.bind {action : Host α} {next : α → Host β} (first : SendsOnce action)
    (rest : ∀ a, KeepsRecord (next a)) : SendsOnce (action >>= next) :=
  fun w => (first w).bind rest

private theorem SendsOnce.after {action : Host α} {next : α → Host β} (first : KeepsRecord action)
    (rest : ∀ a, SendsOnce (next a)) : SendsOnce (action >>= next) := by
  intro w
  have here : (action.run w).2.rest.calls = w.rest.calls := first w
  rw [run_bind]
  rcases outcome : action.run w with ⟨e | a, left⟩
  all_goals rw [outcome] at here
  · exact .inr ⟨here, e, rfl⟩
  · have there := rest a left
    unfold World.SentOnce at there
    rwa [here] at there

/-- A call that does not get to its effect fails, and one that gets to it and fails afterwards has put
on record what its effect did. -/
private theorem sendsOnce_call {c : HostCall α} (effect : SendsOnce c.effect) :
    SendsOnce (call c) := by
  intro w
  obtain ⟨reason, _, _, outcome⟩ | ⟨clock, account, result, left, reply, took, outcome, answer⟩ :=
    call_cases c w
  · rw [outcome]
    exact .inr ⟨rfl, _, rfl⟩
  · have here := effect { w with clock := clock, account := account }
    rw [took] at here
    rw [outcome]
    obtain ⟨sent, recorded⟩ | ⟨none, e, failed⟩ := here
    · exact .inl ⟨sent, recorded⟩
    · refine .inr ⟨none, ?_⟩
      rcases answer with rfl | ⟨reason, rfl⟩
      · exact ⟨e, failed⟩
      · exact ⟨_, rfl⟩

private theorem keepsRecord_makeMessage (data : ResponseData) : KeepsRecord (makeMessage data) :=
  fun _ => rfl

private theorem sendsOnce_sendResponse (interactionId : String) (response : InteractionResponse) :
    SendsOnce (sendResponse interactionId response) := by
  refine (sendsOnce_record _).bind fun _ => ?_
  unfold messageOf
  split
  · exact Keeps.map some (keepsRecord_makeMessage _)
  · exact Keeps.map some (keepsRecord_makeMessage _)
  · exact keeps_pure none

private theorem sendsOnce_send (c : RestCall) : SendsOnce (send c) :=
  sendsOnce_call (c := .service (record c)) (sendsOnce_record c)

end Host

namespace Invocation

open Host

variable (inv : Invocation)

private theorem sendsOnce_initialResponse (response : InteractionResponse) :
    SendsOnce (inv.initialResponse response) := by
  have marked : KeepsRecord (modify fun w => { w with responded := true } : Host PUnit) :=
    keeps_modify fun _ => rfl
  exact sendsOnce_call ((sendsOnce_sendResponse _ response).bind fun _ =>
    Keeps.bind marked fun _ => keeps_pure _)

private theorem sendsOnce_send (kind : ResponseKind) (payload : ResponsePayload) :
    SendsOnce (inv.send kind payload) := by
  refine SendsOnce.after keeps_getThe fun w => ?_
  cases w.responded with
  | true =>
    have followup : SendsOnce (call (.service
        (sendFollowup inv.interaction.applicationId payload.toData))) :=
      sendsOnce_call ((sendsOnce_record _).bind fun _ => keepsRecord_makeMessage _)
    have shown := followup.bind fun message => keeps_pure (some message)
    rw [← map_eq_pure_bind] at shown
    exact shown.bind fun _ => keeps_pure _
  | false => exact (inv.sendsOnce_initialResponse _).bind fun _ => keeps_pure _

private theorem run_defer (w : World) :
    (w.responded = true → inv.defer.run w = (.ok (), w)) ∧
      (w.responded = false → w.SentOnce (inv.defer.run w)) := by
  have chosen : inv.defer.run w = (if w.responded then pure () else do
      let _ ← inv.initialResponse { kind := inv.deferralKind } : Host Unit).run w := by
    rw [defer, run_bind, run_getThe]
  rw [chosen]
  constructor
  · intro answered
    rw [if_pos answered]
    rfl
  · intro open_
    rw [if_neg (by simp [open_])]
    exact (inv.sendsOnce_initialResponse _).bind (fun _ => keeps_pure ()) w

private theorem sendsOnce_checkedSend (r : Requirement) (c : RestCall) :
    SendsOnce (inv.checkedSend r c) := by
  have checked : KeepsRecord (inv.gate.check r) := Gate.keeps_check (fun _ _ _ => rfl) inv.gate r
  exact SendsOnce.after checked fun _ => (Host.sendsOnce_send c).bind fun _ => keeps_pure _

end Invocation

open Host in
private theorem Call.sendsOnce_perform {c : Call} (reach : c.reach = .service) (other : c ≠ .defer)
    (inv : Invocation) : SendsOnce (c.perform inv) := by
  cases mutates : c.mutation? inv.guildId with
  | some mutation =>
    obtain ⟨r, rest⟩ := mutation
    obtain ⟨value, same⟩ := perform_mutation mutates
    rw [same]
    exact (inv.sendsOnce_checkedSend r rest).bind fun _ => keeps_pure value
  | none =>
    cases c with
    | respond kind payload =>
      exact SendsOnce.after (keeps_ofExcept payload) fun payload =>
        (inv.sendsOnce_send kind payload).bind fun _ => keeps_pure _
    | defer => exact absurd rfl other
    | removeReaction channelId messageId emoji userId =>
      cases userId with
      | none => exact (Host.sendsOnce_send _).bind fun _ => keeps_pure _
      | some userId => cases mutates
    | editChannel id edit | editRole id edit =>
      cases edit with
      | error e => exact sendsOnce_throw e
      | ok edit => cases mutates
    | kick | ban | addRole | removeRole | deleteChannel | deleteRole | deleteMessage | addReaction
    | clearReactions => cases mutates
    | _ => cases reach

namespace Host

variable {α : Type} {guild key : String}

/-- What is done to a store is done at the instant at which the action ends, if the store can be
contacted at all. -/
private theorem store_onStore (action : StoreAction α) (w : World) :
    ((onStore action).run w).2.store = w.store ∨ ((onStore action).run w).2.store =
      (w.store.run ((onStore action).run w).2.now action).2 := by
  have same : ((contactStore w.storeMode).run w).2.store = w.store :=
    keeps_contact (fun _ _ _ => rfl) w.storeMode _ w
  rw [run_onStore]
  rcases contact : (contactStore w.storeMode).run w with ⟨e | _, reached⟩
  all_goals rw [contact] at same
  · exact .inl same
  · rw [← same]
    exact .inr rfl

private theorem store_request (r : World → StoreRequest α) (w : World) :
    ((request r).run w).2.store = w.store ∨ ∃ v action, r v = .ok action ∧
      ((request r).run w).2.store = (w.store.run ((request r).run w).2.now action).2 := by
  unfold request
  obtain ⟨_, _, _, outcome⟩ | ⟨clock, account, result, left, reply, took, outcome, -⟩ :=
    call_cases _ w
  all_goals rw [outcome]
  · exact .inl rfl
  · obtain ⟨v, reached⟩ : ∃ v : World, v = { w with clock := clock, account := account } := ⟨_, rfl⟩
    have same : v.store = w.store := by rw [reached]
    change left.store = w.store ∨ ∃ v action, r v = .ok action ∧
      left.store = (w.store.run left.now action).2
    change (getThe World >>= _ : Host α).run _ = _ at took
    rw [← reached, run_bind, run_getThe] at took
    cases made : r v with
    | error e =>
      simp only [made] at took
      cases took
      exact .inl same
    | ok action =>
      simp only [made] at took
      have stored := store_onStore action v
      rw [took, same] at stored
      exact stored.imp_right fun ran => ⟨v, action, made, ran⟩

private theorem agreeBeyond_request {r : World → StoreRequest α}
    (writes : ∀ v action, r v = .ok action → Store.WritesOnly guild key action) (w : World) :
    w.store.AgreeBeyond guild key ((request r).run w).2.now ((request r).run w).2.store := by
  obtain same | ⟨v, action, made, ran⟩ := store_request r w
  · rw [same]
    exact .refl guild key _ w.store
  · rw [ran]
    exact writes v action made w.store _

private theorem keeps_store_of_looks {r : World → StoreRequest α}
    (looks : ∀ v action, r v = .ok action → Store.Looks action) :
    Keeps World.store (request r) := by
  intro w
  obtain same | ⟨v, action, made, ran⟩ := store_request r w
  · exact same
  · exact ran.trans (looks v action made w.store _)

end Host

namespace Call

variable {c : Call} {guild key : String}

private theorem agreeBeyond_perform (reach : c.reach = .entry guild key) (inv : Invocation)
    (w : World) :
    w.store.AgreeBeyond guild key ((c.perform inv).run w).2.now ((c.perform inv).run w).2.store := by
  cases c with
  | storeSet handle name value seconds =>
    obtain ⟨rfl, rfl⟩ := Reach.entry.inj reach
    cases lifetime : Invocation.lifetime seconds with
    | error e =>
      have refused : ((storeSet handle name value seconds).perform inv).run w = (.error e, w) := by
        rw [perform, Host.run_bind, Host.run_ofExcept, lifetime]
      rw [refused]
      exact .refl _ _ _ _
    | ok millis =>
      have ran : (((storeSet handle name value seconds).perform inv).run w).2 =
          ((Host.request fun w => handle.set name value millis w.now).run w).2 := by
        rw [perform, Host.run_bind, Host.run_ofExcept, lifetime]
        exact Host.run_bind_giving w _ fun _ => Value.unit
      rw [ran]
      exact Host.agreeBeyond_request (fun _ _ made => handle.writesOnly_set made) w
  | storeDelete handle name =>
    obtain ⟨rfl, rfl⟩ := Reach.entry.inj reach
    exact Host.agreeBeyond_request (r := fun _ => handle.delete name)
      (fun _ _ made => handle.writesOnly_delete made) w
  | storeIncrease handle name delta =>
    obtain ⟨rfl, rfl⟩ := Reach.entry.inj reach
    exact Host.agreeBeyond_request (r := fun _ => handle.increase name delta)
      (fun _ _ made => handle.writesOnly_increase made) w
  | _ => cases reach

private theorem keeps_store (reach : ∀ guild key, c.reach ≠ .entry guild key) (inv : Invocation) :
    Host.Keeps World.store (c.perform inv) := by
  cases request : c.isRequest with
  | false => exact keeps_store_of_isRequest request
  | true =>
    cases c with
    | storeGet handle key =>
      have looks : Host.Keeps World.store (Host.request fun _ => handle.get key) :=
        Host.keeps_store_of_looks fun _ _ made => handle.looks_get made
      exact looks
    | storeSearch handle pattern =>
      have looks : Host.Keeps World.store (Host.request fun _ => handle.search pattern) :=
        Host.keeps_store_of_looks fun _ _ made => handle.looks_search made
      exact looks.bind fun _ => Host.keeps_pure _
    | storeSet | storeDelete | storeIncrease => exact absurd rfl (reach _ _)
    | _ => cases request

end Call

/-- What holds of a call that is made in `w` and comes to `done`. -/
structure Call.Frame (c : Call) (inv : Invocation) (w : World)
    (done : Except RunError Value × World) : Prop where
  cache : done.2.cache = w.cache
  /-- Whatever the run was dispatched with reads as before. -/
  snapshot : ∀ view name read, inv.capabilities.property? view name = some read →
    (read.run done.2).1 = (read.run w).1
  service : c.reach ≠ .service → done.2.rest = w.rest ∧ done.2.responded = w.responded
  /-- Only an answer makes the interaction count as answered. -/
  tracker : c.isAnswer = false → done.2.responded = w.responded
  store : (∀ guild key, c.reach ≠ .entry guild key) → done.2.store = w.store
  /-- Under other keys a guild has the live entries that it would have without the call. -/
  entry : ∀ guild key, c.reach = .entry guild key →
    w.store.AgreeBeyond guild key done.2.now done.2.store
  /-- Earlier calls stay on record, and one is added, or none by a call that fails. -/
  sent : c.reach = .service → ¬ (c = .defer ∧ w.responded = true) → w.SentOnce done
  /-- A deferral after an answer does nothing. -/
  idle : c = .defer → w.responded = true → done = (.ok .unit, w)

private theorem Call.frame_perform (c : Call) (inv : Invocation) (w : World) :
    c.Frame inv w ((c.perform inv).run w) where
  cache := c.keeps_cache inv w
  snapshot := by
    intro view name read offered
    obtain ⟨result, -, rfl⟩ := Option.map_eq_some_iff.1 offered
    rw [Host.run_ofExcept, Host.run_ofExcept]
  service reach := Prod.mk.inj (keeps_service reach w)
  tracker other := keeps_responded other w
  store reach := keeps_store reach inv w
  entry _ _ reach := agreeBeyond_perform reach inv w
  sent := by
    intro reach busy
    by_cases deferral : c = .defer
    · subst deferral
      cases open_ : w.responded with
      | true => exact absurd ⟨rfl, open_⟩ busy
      | false =>
        have sent := (inv.run_defer w).2 open_
        exact sent.bind fun _ => Host.keeps_pure Value.unit
    · exact sendsOnce_perform reach deferral inv w
  idle := by
    rintro rfl answered
    rw [perform, Host.run_bind, (inv.run_defer w).1 answered]
    rfl

structure Invocation.Framed (inv : Invocation) : Prop where
  /-- A function is a method of a view, and a call of it keeps within the reach of the method. -/
  function : ∀ (w : World) name args action, inv.capabilities.function? name args = some action →
    ∃ view rest c, args = .view view :: rest ∧ view.method? name rest = some c ∧
      c.reach = view.reach name rest ∧ c.Frame inv w (action.run w)
  /-- To read a property leaves the world as it is. -/
  property : ∀ (w : World) view name read, inv.capabilities.property? view name = some read →
    (read.run w).2 = w
  /-- The store that a script is given is that of its guild. -/
  store : ∀ limits name h, (name, View.store h) ∈ Surface.standard inv limits →
    h.guild = inv.guildId

/-- Whatever a script does with what it is offered touches only what it may. -/
theorem Invocation.capabilities_framed (inv : Invocation) : inv.Framed where
  function := by
    intro w name args action offered
    simp only [capabilities] at offered
    split at offered
    next view rest =>
      obtain ⟨c, method, rfl⟩ := Option.map_eq_some_iff.1 offered
      exact ⟨view, rest, c, rfl, method, View.reach_of_method? method, c.frame_perform inv w⟩
    next => cases offered
  property := by
    intro w view name read offered
    obtain ⟨result, -, rfl⟩ := Option.map_eq_some_iff.1 offered
    rw [Host.run_ofExcept]
  store := by
    intro limits name h bound
    simp only [Surface.standard] at bound
    split at bound
    all_goals
      simp [Surface.add] at bound
      rw [bound.2]

/-- A world in which two guilds have an entry under the same key. -/
def pairedWorld : World :=
  { freshWorld with
    store := .memory {
      guilds := [("42", [("k", ⟨"42", "k", "1", none, freshWorld.epoch, freshWorld.epoch⟩)]),
        ("43", [("k", ⟨"43", "k", "2", none, freshWorld.epoch, freshWorld.epoch⟩)])] } }

theorem pairedWorld_framed :
    let args : List Value := [.view (.store { guild := "42", limits := {} }), .str "k"]
    ∃ action, plainInvocation.capabilities.function? "delete" args = some action ∧
      (action.run pairedWorld).2.store.load "42" = .ok [] ∧
      (action.run pairedWorld).2.store.load "43" = pairedWorld.store.load "43" ∧
      (action.run pairedWorld).2.rest = pairedWorld.rest := by
  intro args
  obtain ⟨view, rest, c, same, method, -, frame⟩ :=
    plainInvocation.capabilities_framed.function pairedWorld "delete" args _ rfl
  obtain ⟨rfl, rfl⟩ : _ = view ∧ _ = rest := by simpa [args] using same
  cases method
  have others := (frame.entry "42" "k" rfl).guilds "43" (by decide)
  have unsent := (frame.service (by decide)).1
  exact ⟨_, rfl, by decide +kernel, others, unsent⟩

end GuildSandbox

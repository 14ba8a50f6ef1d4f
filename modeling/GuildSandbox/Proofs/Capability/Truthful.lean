import GuildSandbox.Proofs.Capability.Requirement
import GuildSandbox.Proofs.Host.Gate
import GuildSandbox.Proofs.Host.Orderly

set_option autoImplicit false
set_option relaxedAutoImplicit false

namespace GuildSandbox

def Unrelated {α : Type} (result : Except RunError α) : Prop :=
  ∀ reason, result ≠ .error (.cancelled reason)

namespace Unrelated

variable {α β : Type}

private theorem ok (a : α) : Unrelated (.ok a) := nofun

private theorem invalidArgument (detail : String) :
    Unrelated (.error (.invalidArgument detail) : Except RunError α) := nofun

private theorem ofValue (result : Except ValueError α) :
    Unrelated (result.mapError RunError.value) := by
  cases result <;> exact nofun

private theorem bind {result : Except RunError α} {next : α → Except RunError β}
    (first : Unrelated result)
    (then_ : ∀ a, Unrelated (next a)) : Unrelated (result >>= next) := by
  cases result with
  | ok a => exact then_ a
  | error e =>
    intro reason same
    cases same
    exact first reason rfl

private theorem map {result : Except RunError α} (first : Unrelated result) (f : α → β) :
    Unrelated (f <$> result) := by
  cases result with
  | ok a => exact nofun
  | error e =>
    intro reason same
    cases same
    exact first reason rfl

end Unrelated

namespace Fields

variable (entries : Dict Value) (name : String)

private theorem unrelated_rejectUnknown (allowed : List String) :
    Unrelated (rejectUnknown entries allowed) := by
  unfold rejectUnknown
  split
  · exact .invalidArgument _
  · exact .ok ()

private theorem unrelated_text? : Unrelated (text? entries name) := by
  unfold text?
  split
  · exact .ok _
  · exact .ok _
  · exact .ok _
  · exact .invalidArgument _

private theorem unrelated_bool (default : Bool) : Unrelated (bool entries name default) := by
  unfold bool
  split
  · exact .ok _
  · exact .ok _
  · exact .ok _
  · exact .invalidArgument _

end Fields

private theorem ResponsePayload.unrelated_embedsOf (entries : Dict Value) :
    Unrelated (embedsOf entries) := by
  unfold embedsOf
  split
  · exact .ok _
  · exact .ok _
  · refine (Unrelated.ofValue _).bind fun tree => ?_
    split
    · exact .ok _
    · exact .ok _
    · exact .invalidArgument _

private theorem ResponsePayload.unrelated_ofMap (entries : Dict Value) :
    Unrelated (ofMap entries) := by
  refine (Fields.unrelated_rejectUnknown entries _).bind fun _ => ?_
  refine (Fields.unrelated_bool entries _ _).bind fun _ => ?_
  refine (unrelated_embedsOf entries).bind fun _ => ?_
  exact (Fields.unrelated_text? entries _).bind fun _ => .ok _

private theorem ChannelEdit.unrelated_ofMap (entries : Dict Value) : Unrelated (ofMap entries) := by
  refine (Fields.unrelated_rejectUnknown entries _).bind fun _ => ?_
  refine (Fields.unrelated_text? entries _).bind fun _ => ?_
  exact (Fields.unrelated_text? entries _).bind fun _ => .ok _

private theorem RoleEdit.unrelated_ofMap (entries : Dict Value) : Unrelated (ofMap entries) := by
  refine (Fields.unrelated_rejectUnknown entries _).bind fun _ => ?_
  exact (Fields.unrelated_text? entries _).bind fun _ => .ok _

private theorem CommandData.unrelated_argument (c : CommandData) (name : String) :
    Unrelated (c.argument name) := by
  unfold argument
  split
  · exact .ok _
  split
  · exact .ok _
  unfold convert
  simp only
  split
  -- Text, numbers and truth values have to fit their kinds.
  case h_1 | h_2 | h_3 | h_4 =>
    split
    · exact .ok _
    · exact .invalidArgument _
  all_goals exact .ok _

private theorem View.unrelated_embedValues (embeds : List Json) :
    Unrelated (embedValues embeds) := by
  induction embeds with
  | nil => exact .ok _
  | cons embed rest ih =>
    refine (Unrelated.ofValue _).bind fun first => ?_
    exact ih.bind fun _ => .ok _

theorem View.unrelated_property? {inv : Invocation} {view : View} {name : String}
    {result : Except RunError Value} (found : view.property? inv name = some result) :
    Unrelated result := by
  have plain {v : Option Value} (found : v.map Except.ok = some result) : Unrelated result := by
    obtain ⟨value, -, rfl⟩ := Option.map_eq_some_iff.1 found
    exact .ok value
  cases view with
  | message m =>
    simp only [property?, messageProperty?] at found
    split at found
    case h_5 =>
      cases found
      exact (unrelated_embedValues m.embeds).map _
    all_goals first | cases found; exact .ok _ | cases found
  | store _ | savedMessages => cases found
  | _ => exact plain found

namespace Host

private theorem orderly_messageOf (response : InteractionResponse) :
    Orderly (messageOf response) := by
  unfold messageOf
  split
  · exact (orderly_makeMessage _).map _
  · exact (orderly_makeMessage _).map _
  · exact orderly_pure _

private theorem orderly_sendResponse (interactionId : String) (response : InteractionResponse) :
    Orderly (sendResponse interactionId response) :=
  (orderly_record _).bind fun _ => orderly_messageOf response

private theorem orderly_sendFollowup (applicationId : String) (data : ResponseData) :
    Orderly (sendFollowup applicationId data) :=
  (orderly_record _).bind fun _ => orderly_makeMessage data

private theorem truthful_lookupCall {α : Type} (query : Cache → α) : Truthful (lookupCall query) :=
  truthful_call (c := .immediate (lookup query)) (orderly_lookup query).truthful

private theorem truthful_request {α : Type} (r : World → StoreRequest α) :
    Truthful (request r) := by
  refine truthful_call (Orderly.truthful (orderly_getThe.bind fun w => ?_))
  cases r w with
  | ok action => exact orderly_onStore action
  | error e => exact orderly_throw fun _ => RunError.noConfusion

private theorem truthful_send (rest : RestCall) : Truthful (send rest) :=
  truthful_call (c := .service (record rest)) (orderly_record rest).truthful

end Host

open Host

private theorem Gate.unrelated_demand (g : Gate) (p : DerivedPermissions) (r : Requirement) :
    Unrelated (g.demand p r) := by
  unfold demand
  split
  · exact .ok ()
  · exact nofun

private theorem Gate.truthful_check (g : Gate) (r : Requirement) : Truthful (g.check r) := by
  refine (truthful_ofExcept (g.unrelated_demand _ r)).bind fun _ => ?_
  refine (truthful_lookupCall fun c => c.livePermissions? g.snapshot.userId).bind fun live => ?_
  cases live with
  | none => exact truthful_pure ()
  | some p => exact truthful_ofExcept (g.unrelated_demand p r)

namespace Invocation

variable (inv : Invocation)

private theorem truthful_initialResponse (response : InteractionResponse) :
    Truthful (inv.initialResponse response) := by
  have marked : Orderly (modify fun w : World => { w with responded := true }) :=
    orderly_modify fun w => .refl w.account
  refine truthful_call (Orderly.truthful ?_)
  exact (orderly_sendResponse _ response).bind fun message => marked.bind fun _ => orderly_pure _

private theorem truthful_send (kind : ResponseKind) (payload : ResponsePayload) :
    Truthful (inv.send kind payload) := by
  refine truthful_getThe.bind fun w => ?_
  cases w.responded with
  | true =>
    refine Truthful.bind (Truthful.map some ?_) fun _ => truthful_pure _
    exact truthful_call (orderly_sendFollowup _ payload.toData).truthful
  | false => exact (inv.truthful_initialResponse _).bind fun _ => truthful_pure _

private theorem truthful_defer : Truthful inv.defer := by
  refine truthful_getThe.bind fun w => ?_
  cases w.responded with
  | true => exact truthful_pure ()
  | false => exact (inv.truthful_initialResponse _).bind fun _ => truthful_pure _

private theorem truthful_checkedSend (r : Requirement) (rest : RestCall) :
    Truthful (inv.checkedSend r rest) :=
  (inv.gate.truthful_check r).bind fun _ => (Host.truthful_send rest).bind fun _ => truthful_pure _

end Invocation

namespace Call

def IsUnrelated : Call → Prop
  | .respond _ payload => Unrelated payload
  | .editChannel _ edit => Unrelated edit
  | .editRole _ edit => Unrelated edit
  | _ => True

theorem truthful_perform {c : Call} (unrelated : c.IsUnrelated) (inv : Invocation) :
    Truthful (c.perform inv) := by
  have lookups {α : Type} (query : Cache → α) (f : α → Value) :
      Truthful (do return f (← lookupCall query)) :=
    (truthful_lookupCall query).bind fun _ => truthful_pure _
  have requests {α : Type} (r : World → StoreRequest α) : Truthful (request r) := truthful_request r
  cases c with
  | respond kind payload =>
    refine (truthful_ofExcept unrelated).bind fun payload => ?_
    exact (inv.truthful_send kind payload).bind fun _ => truthful_pure _
  | defer => exact inv.truthful_defer.bind fun _ => truthful_pure _
  | guild | channel | role | member | guildChannels | guildRoles | channelMessage =>
    exact lookups _ _
  | argument command name => exact truthful_ofExcept (command.unrelated_argument name)
  | mention text => exact truthful_pure _
  | savedMessageData message => exact truthful_ofExcept (Unrelated.ofValue _)
  | savedMessage id => exact (truthful_call (truthful_pure _)).bind fun _ => truthful_pure _
  | editChannel id edit =>
    refine (truthful_ofExcept unrelated).bind fun edit => ?_
    exact (inv.truthful_checkedSend _ _).bind fun _ => truthful_pure _
  | editRole id edit =>
    refine (truthful_ofExcept unrelated).bind fun edit => ?_
    exact (inv.truthful_checkedSend _ _).bind fun _ => truthful_pure _
  | removeReaction channelId messageId emoji userId =>
    cases userId with
    | none => exact (Host.truthful_send _).bind fun _ => truthful_pure _
    | some userId => exact inv.truthful_checkedSend _ _
  | storeSet handle key value seconds =>
    have lifetime : Unrelated (Invocation.lifetime seconds) := by
      unfold Invocation.lifetime
      split
      · exact .ok _
      · split
        · exact .ok _
        · exact .invalidArgument _
    refine (truthful_ofExcept lifetime).bind fun lifetime => ?_
    exact (requests fun w => handle.set key value lifetime w.now).bind fun _ => truthful_pure _
  | storeGet handle key => exact requests fun _ => handle.get key
  | storeDelete handle key => exact requests fun _ => handle.delete key
  | storeIncrease handle key delta => exact requests fun _ => handle.increase key delta
  | storeSearch handle pattern =>
    exact (requests fun _ => handle.search pattern).bind fun _ => truthful_pure _
  | _ => exact inv.truthful_checkedSend _ _

end Call

namespace View

private theorem isUnrelated_contextMethod? (name : String) (args : List Value) :
    ∀ c ∈ contextMethod? name args, c.IsUnrelated := by
  have answers (kind : ResponseKind) (args : List Value) :
      ∀ c ∈ answer? kind args, c.IsUnrelated := by
    fun_cases answer? kind args
    case case3 payload =>
      rintro c ⟨⟩
      exact ResponsePayload.unrelated_ofMap payload
    all_goals rintro c ⟨⟩
    all_goals exact .ok _
  fun_cases contextMethod? name args
  case case1 | case2 => exact answers _ _
  all_goals rintro c ⟨⟩
  all_goals trivial

private theorem isUnrelated_channelMethod? (channel : Channel) (name : String) (args : List Value) :
    ∀ c ∈ channelMethod? channel name args, c.IsUnrelated := by
  fun_cases channelMethod? channel name args
  case case2 changes =>
    rintro c ⟨⟩
    exact ChannelEdit.unrelated_ofMap changes
  all_goals rintro c ⟨⟩
  all_goals trivial

private theorem isUnrelated_roleMethod? (role : Role) (name : String) (args : List Value) :
    ∀ c ∈ roleMethod? role name args, c.IsUnrelated := by
  fun_cases roleMethod? role name args
  case case2 changes =>
    rintro c ⟨⟩
    exact RoleEdit.unrelated_ofMap changes
  all_goals rintro c ⟨⟩
  all_goals trivial

theorem isUnrelated_method? (view : View) (name : String) (args : List Value) :
    ∀ c ∈ view.method? name args, c.IsUnrelated := by
  cases view with
  | context => exact isUnrelated_contextMethod? name args
  | channel channel => exact isUnrelated_channelMethod? channel name args
  | role role => exact isUnrelated_roleMethod? role name args
  | store h =>
    change ∀ c ∈ storeMethod? h name args, c.IsUnrelated
    fun_cases storeMethod? h name args
    all_goals rintro c ⟨⟩
    all_goals trivial
  | member m =>
    change ∀ c ∈ memberMethod? m name args, c.IsUnrelated
    fun_cases memberMethod? m name args
    all_goals rintro c ⟨⟩
    all_goals trivial
  | guild g =>
    change ∀ c ∈ guildMethod? g name args, c.IsUnrelated
    fun_cases guildMethod? g name args
    all_goals rintro c ⟨⟩
    all_goals trivial
  | message m =>
    change ∀ c ∈ messageMethod? m name args, c.IsUnrelated
    fun_cases messageMethod? m name args
    all_goals rintro c ⟨⟩
    all_goals trivial
  | user | attachment | command | savedMessage | savedMessages =>
    unfold method?
    split
    all_goals first
      | contradiction
      | rintro c ⟨⟩; trivial
      | rintro c ⟨⟩

end View

end GuildSandbox

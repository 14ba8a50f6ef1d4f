import GuildSandbox.Proofs.Capability.Requirement
import GuildSandbox.Proofs.Tenancy.Hosts

set_option autoImplicit false
set_option relaxedAutoImplicit false

namespace GuildSandbox

def View.InScope (t : Tenancy) : View → Prop
  | .guild g => g.id = t.guild
  | .channel ch => ∃ own ∈ t.ours.guildChannels t.guild, own.id = ch.id
  | .store h => h.guild = t.guild
  | _ => True

def View.isChannel : View → Bool
  | .channel _ => true
  | _ => false

namespace Call

def Within (t : Tenancy) : Call → Prop
  | .guildChannels guildId | .guildRoles guildId => guildId = t.guild
  | .channelMessage channelId _ | .editChannel channelId _ =>
    ∃ own ∈ t.ours.guildChannels t.guild, own.id = channelId
  | .storeSet handle _ _ _ | .storeGet handle _ | .storeDelete handle _ | .storeIncrease handle _ _
  | .storeSearch handle _ => handle.guild = t.guild
  | _ => True

def isLookup : Call → Bool
  | .guild | .channel _ | .role _ | .member _ | .guildChannels _ | .guildRoles _
  | .channelMessage _ _ | .savedMessage _ => true
  | _ => false

/-- A script may take up a view that it gets by the call. A channel that an option of a command names
is not taken up. -/
def offers : Call → View → Bool
  | .argument _ _, v => !v.isChannel
  | _, _ => true

def gains (c : Call) (value : Value) : List View := value.views.filter c.offers

/-- A view that the call shows is in scope when it may be taken up, and a channel that was looked up
is of the guild. -/
structure Admits (t : Tenancy) (c : Call) (v : View) : Prop where
  scope : c.offers v = true → v.InScope t
  own : c.isLookup = true → ∀ channel, v = .channel channel → channel.guildId = some t.guild

abbrev Fits (t : Tenancy) (c : Call) (value : Value) : Prop := value.EveryView (c.Admits t)

variable {t : Tenancy} {c : Call}

private theorem admits_of_scope {v : View} (other : v.isChannel = false) (scope : v.InScope t) :
    c.Admits t v := by
  refine ⟨fun _ => scope, ?_⟩
  rintro - channel rfl
  cases other

private theorem admits_channel {channel : Channel}
    (member : channel ∈ t.ours.guildChannels t.guild) :
    c.Admits t (.channel channel) := by
  refine ⟨fun _ => ⟨channel, member, rfl⟩, ?_⟩
  rintro - _ ⟨⟩
  exact of_decide_eq_true (List.mem_filter.1 member).2

theorem Fits.scope_gains {value : Value} (fits : c.Fits t value) :
    ∀ v ∈ c.gains value, v.InScope t := by
  intro v gained
  obtain ⟨shown, offered⟩ := List.mem_filter.1 gained
  exact (fits v shown).scope offered

end Call

theorem View.InScope.within {t : Tenancy} {view : View} (scope : view.InScope t) {name : String}
    {args : List Value} {c : Call} (method : view.method? name args = some c) : c.Within t := by
  cases view with
  | context =>
    change contextMethod? name args = some c at method
    revert method
    fun_cases contextMethod? name args
    case case1 | case2 =>
      unfold answer?
      split
      all_goals
        rintro ⟨⟩
        try trivial
    all_goals
      rintro ⟨⟩
      try trivial
  | store h =>
    change storeMethod? h name args = some c at method
    revert method
    fun_cases storeMethod? h name args
    all_goals
      rintro ⟨⟩
      try exact scope
  | guild g =>
    change guildMethod? g name args = some c at method
    revert method
    fun_cases guildMethod? g name args
    all_goals
      rintro ⟨⟩
      try first | exact scope | trivial
  | channel ch =>
    change channelMethod? ch name args = some c at method
    revert method
    fun_cases channelMethod? ch name args
    all_goals
      rintro ⟨⟩
      try first | exact scope | trivial
  | member m =>
    change memberMethod? m name args = some c at method
    revert method
    fun_cases memberMethod? m name args
    all_goals
      rintro ⟨⟩
      try trivial
  | role r =>
    change roleMethod? r name args = some c at method
    revert method
    fun_cases roleMethod? r name args
    all_goals
      rintro ⟨⟩
      try trivial
  | message m =>
    change messageMethod? m name args = some c at method
    revert method
    fun_cases messageMethod? m name args
    all_goals
      rintro ⟨⟩
      try trivial
  | user | attachment | command | savedMessage | savedMessages =>
    unfold method? at method
    split at method
    all_goals first
      | contradiction
      | (cases method; trivial)

private theorem CommandData.everyView_argument {command : CommandData} {name : String}
    {value : Value}
    (converted : command.argument name = .ok value) (t : Tenancy) :
    value.EveryView fun v => v.isChannel = true ∨ v.InScope t := by
  unfold argument at converted
  split at converted
  · cases converted
    exact Value.HasNoView.everyView rfl
  split at converted
  · cases converted
    exact Value.HasNoView.everyView rfl
  unfold convert at converted
  simp only at converted
  split at converted
  -- Text and numbers.
  case h_1 | h_2 | h_3 | h_4 =>
    split at converted
    · rename_i found
      obtain ⟨_, -, rfl⟩ := Option.map_eq_some_iff.1 found
      cases converted
      exact Value.HasNoView.everyView rfl
    · cases converted
  -- Entities.
  case h_5 | h_7 =>
    cases converted
    exact Value.everyView_view (.inr trivial)
  case h_6 =>
    cases converted
    exact Value.everyView_view (.inl rfl)
  case h_8 =>
    cases converted
    unfold mentionable
    split
    · exact Value.everyView_view (.inr trivial)
    · split
      · exact Value.everyView_view (.inr trivial)
      · exact Value.HasNoView.everyView rfl
  case h_9 =>
    cases converted
    exact Value.everyView_found fun _ _ => .inr trivial
  case h_10 | h_11 =>
    cases converted
    exact Value.HasNoView.everyView rfl

/-- The guild is that of the interaction, and the caches agree on it, with unique channels. -/
structure Tenancy.Suits (t : Tenancy) (inv : Invocation) : Prop where
  guild : inv.guildId = t.guild
  agree : t.ours.AgreeOn t.guild inv.permissions.userId t.theirs
  unique : t.ours.UniqueChannels
  uniqueThere : t.theirs.UniqueChannels

namespace Tenancy

variable {t : Tenancy} {inv : Invocation}

private theorem Suits.respects_check (suits : t.Suits inv) (r : Requirement) :
    t.Respects (fun _ => True) (inv.gate.check r) := by
  have looked : t.Respects (fun _ => True) (Host.lookupCall fun c =>
    c.livePermissions? inv.permissions.userId) := respects_lookupCall suits.agree.permissions trivial
  refine (respects_ofExcept fun _ _ => trivial).bind fun _ _ => looked.bind fun live _ => ?_
  cases live with
  | none => exact respects_pure trivial
  | some p => exact respects_ofExcept fun _ _ => trivial

private theorem Suits.respects_checkedSend (suits : t.Suits inv) (r : Requirement) {c : RestCall}
    (own : ∀ id ∈ c.guildId?, id = t.guild) :
    t.Respects Value.HasNoView (inv.checkedSend r c) := by
  refine (suits.respects_check r).bind fun _ _ => ?_
  refine Respects.bind (respects_service (respects_record own)) fun _ _ => ?_
  exact respects_pure rfl

private theorem respects_sendResponse (interactionId : String) (response : InteractionResponse) :
    t.Respects (fun _ => True) (Host.sendResponse interactionId response) := by
  have shown (data : ResponseData) :
      t.Respects (fun _ => True) (some <$> Host.makeMessage data) := by
    rw [map_eq_pure_bind]
    exact (respects_makeMessage data).bind fun _ _ => respects_pure trivial
  refine (respects_record_of_none rfl).bind fun _ _ => ?_
  unfold Host.messageOf
  split
  · exact shown _
  · exact shown _
  · exact respects_pure trivial

private theorem respects_initialResponse (response : InteractionResponse) :
    t.Respects (fun _ => True) (inv.initialResponse response) := by
  refine respects_service ((respects_sendResponse _ _).bind fun _ _ => ?_)
  have answered : t.Respects (fun _ => True)
      (modify fun w => { w with responded := true } : Host PUnit) := by
    refine respects_modify fun w v related => ?_
    obtain ⟨store, rfl, agree⟩ := related.other
    exact ⟨related.cache, ⟨store, rfl, agree⟩, related.calls⟩
  exact answered.bind fun _ _ => respects_pure trivial

private theorem responded_eq {w v : World} (related : t.Relates w v) :
    v.responded = w.responded := by
  obtain ⟨store, rfl, -⟩ := related.other
  rfl

private theorem respects_send (kind : ResponseKind) (payload : ResponsePayload) :
    t.Respects (fun _ => True) (inv.send kind payload) := by
  have followup (data : ResponseData) : t.Respects (fun _ => True)
      (some <$> Host.call (.service (Host.sendFollowup inv.interaction.applicationId data))) := by
    have sent : t.Respects (fun _ => True)
        (Host.sendFollowup inv.interaction.applicationId data) :=
      (respects_record_of_none rfl).bind fun _ _ => respects_makeMessage data
    rw [map_eq_pure_bind]
    exact (respects_service sent).bind fun _ _ => respects_pure trivial
  refine respects_read fun w v related => ?_
  rw [responded_eq related]
  cases w.responded with
  | true => exact (followup _).bind (fun _ _ => respects_pure trivial) w v related
  | false =>
    exact (respects_initialResponse _).bind (fun _ _ => respects_pure trivial) w v related

private theorem respects_defer : t.Respects (fun _ => True) inv.defer := by
  refine respects_read fun w v related => ?_
  rw [responded_eq related]
  cases w.responded with
  | true => exact respects_pure trivial w v related
  | false =>
    exact (respects_initialResponse _).bind (fun _ _ => respects_pure trivial) w v related

/-- A value that an entry holds has no view in it, and neither has the value of a request that ends
with reading one. -/
private theorem hasNoView_of_valueOf {entry : Entry} {value : Value}
    (read : StoreHandle.valueOf entry = .ok value) : value.HasNoView :=
  Value.ofJsonText_hasNoView (eq_ok_of_mapError read)

private theorem hasNoView_of_valueOf? {entry : Option Entry} {value : Value}
    (read : StoreHandle.valueOf? entry = .ok value) : value.HasNoView := by
  cases entry with
  | none =>
    cases read
    rfl
  | some entry => exact hasNoView_of_valueOf read

private theorem hasNoView_of_valuesOf {entries : List Entry} {values : List (String × Value)}
    (read : StoreHandle.valuesOf entries = .ok values) : ∀ p ∈ values, p.2.HasNoView := by
  induction entries generalizing values with
  | nil =>
    cases read
    exact fun p member => absurd member List.not_mem_nil
  | cons entry rest ih =>
    obtain ⟨first, here, read⟩ := exists_ok_of_bind read
    obtain ⟨others, there, read⟩ := exists_ok_of_bind read
    cases read
    exact List.forall_mem_cons.2 ⟨hasNoView_of_valueOf here, ih there⟩

end Tenancy

namespace Call

variable {t : Tenancy} {inv : Invocation}

private theorem respects_lookup {c : Call} {α : Type} {query : Cache → α} {f : α → Value}
    (same : query t.ours = query t.theirs) (fits : c.Fits t (f (query t.ours))) :
    t.Respects (c.Fits t) (do return f (← Host.lookupCall query)) := by
  have found : t.Respects (· = query t.ours) (Host.lookupCall query) :=
    Tenancy.respects_lookupCall same rfl
  refine found.bind fun a here => ?_
  rw [here]
  exact Tenancy.respects_pure fits

private theorem respects_found {c : Call} {α : Type} {query : Cache → Option α} {view : α → View}
    (same : query t.ours = query t.theirs)
    (fits : c.Fits t (.ofView? ((query t.ours).map view))) :
    t.Respects (c.Fits t) (do return .ofView? ((← Host.lookupCall query).map view)) :=
  respects_lookup (f := fun found : Option α => .ofView? (found.map view)) same fits

private theorem respects_of_hasNoView {c : Call} {action : Host Value}
    (respects : t.Respects Value.HasNoView action) : t.Respects (c.Fits t) action := by
  intro w v related
  obtain ⟨same, related, none⟩ := respects w v related
  exact ⟨same, related, fun a ok => (none a ok).everyView⟩

private theorem fits_channel (suits : t.Suits inv) (id : Option String) :
    (channel id).Fits t (.ofView? ((inv.ownChannel?
      (id.getD inv.interaction.channelId) t.ours).map .channel)) := by
  unfold Invocation.ownChannel?
  rw [suits.guild, Cache.channel?_filter suits.unique]
  exact Value.everyView_found fun _ found => admits_channel (List.mem_of_find?_eq_some found)

private theorem fits_argument {command : CommandData} {name : String} {value : Value}
    (converted : command.argument name = .ok value) : (argument command name).Fits t value := by
  refine fun v shown => ⟨fun offered => ?_, fun lookup => by cases lookup⟩
  refine (command.everyView_argument converted t v shown).resolve_left fun channel => ?_
  rw [offers, channel] at offered
  cases offered

section

variable {handle : StoreHandle} (own : handle.guild = t.guild)

include own

private theorem respects_storeSet (key : String) (value : Value) (seconds : Option Int64) :
    t.Respects ((storeSet handle key value seconds).Fits t)
      ((storeSet handle key value seconds).perform inv) := by
  have lasts : t.Respects (fun _ => True) (ofExcept (Invocation.lifetime seconds)) :=
    Tenancy.respects_ofExcept fun _ _ => trivial
  refine lasts.bind fun lifetime _ => ?_
  have kept : t.Respects (fun _ => True)
      (Host.request fun w => handle.set key value lifetime w.now) := by
    refine Tenancy.respects_request (fun w v related => ?_) (fun w now => ?_)
      fun _ _ _ _ _ _ _ => trivial
    · obtain ⟨store, rfl, -⟩ := related.other
      rfl
    · exact own ▸ handle.confined_set now key value lifetime w.now
  exact kept.bind fun _ _ => Tenancy.respects_pure (Value.HasNoView.everyView rfl)

private theorem respects_storeGet (key : String) :
    t.Respects ((storeGet handle key).Fits t) ((storeGet handle key).perform inv) := by
  have found : t.Respects Value.HasNoView (Host.request fun _ => handle.get key) := by
    refine Tenancy.respects_request (fun _ _ _ => rfl)
      (fun _ now => own ▸ handle.confined_get now key) fun w now s action a made ok => ?_
    cases made
    obtain ⟨_, read⟩ := Store.succeeds_bind_liftM ok
    exact Tenancy.hasNoView_of_valueOf? read
  exact respects_of_hasNoView found

private theorem respects_storeDelete (key : String) :
    t.Respects ((storeDelete handle key).Fits t) ((storeDelete handle key).perform inv) := by
  have found : t.Respects Value.HasNoView (Host.request fun _ => handle.delete key) := by
    refine Tenancy.respects_request (fun _ _ _ => rfl)
      (fun _ now => own ▸ handle.confined_delete now key) fun w now s action a made ok => ?_
    cases made
    obtain ⟨_, read⟩ := Store.succeeds_bind_liftM ok
    exact Tenancy.hasNoView_of_valueOf? read
  exact respects_of_hasNoView found

private theorem respects_storeIncrease (key : String) (delta : Int64) :
    t.Respects ((storeIncrease handle key delta).Fits t)
      ((storeIncrease handle key delta).perform inv) := by
  have found : t.Respects Value.HasNoView (Host.request fun _ => handle.increase key delta) := by
    refine Tenancy.respects_request (fun _ _ _ => rfl)
      (fun _ now => own ▸ handle.confined_increase now key delta)
      fun w now s action a made ok => ?_
    obtain ⟨-, -, made⟩ := exists_ok_of_bind made
    cases made
    obtain ⟨_, read⟩ := Store.succeeds_bind_liftM ok
    exact Tenancy.hasNoView_of_valueOf read
  exact respects_of_hasNoView found

private theorem respects_storeSearch (pattern : String) :
    t.Respects ((storeSearch handle pattern).Fits t)
      ((storeSearch handle pattern).perform inv) := by
  have found : t.Respects (fun values : List (String × Value) => ∀ p ∈ values, p.2.HasNoView)
      (Host.request fun _ => handle.search pattern) := by
    refine Tenancy.respects_request (fun _ _ _ => rfl)
      (fun _ now => own ▸ handle.confined_search now pattern) fun w now s action a made ok => ?_
    cases made
    obtain ⟨_, read⟩ := Store.succeeds_bind_liftM ok
    exact Tenancy.hasNoView_of_valuesOf read
  exact found.bind fun values none =>
    Tenancy.respects_pure (Value.hasNoView_ofPairs none).everyView

end

theorem respects_perform (suits : t.Suits inv) {c : Call} (within : c.Within t) :
    t.Respects (c.Fits t) (c.perform inv) := by
  have unnamed {r : Requirement} {rest : RestCall} (none : rest.guildId? = none) :
      t.Respects Value.HasNoView (inv.checkedSend r rest) := by
    refine suits.respects_checkedSend r fun id named => ?_
    rw [none] at named
    cases named
  have named {r : Requirement} {rest : RestCall} (here : rest.guildId? = some inv.guildId) :
      t.Respects Value.HasNoView (inv.checkedSend r rest) := by
    refine suits.respects_checkedSend r fun id there => ?_
    rw [here] at there
    exact (Option.some.inj there).symm.trans suits.guild
  cases c with
  | respond kind payload =>
    refine (Tenancy.respects_ofExcept fun _ _ => trivial).bind fun payload _ => ?_
    refine (Tenancy.respects_send kind payload).bind fun message _ => Tenancy.respects_pure ?_
    exact Value.everyView_found fun _ _ => admits_of_scope rfl trivial
  | defer =>
    exact respects_of_hasNoView
      (Tenancy.respects_defer.bind fun _ _ => Tenancy.respects_pure rfl)
  | mention text => exact Tenancy.respects_pure (Value.HasNoView.everyView rfl)
  -- Look-ups.
  | guild =>
    rw [perform, suits.guild]
    refine respects_found suits.agree.record (Value.everyView_found fun g found => admits_of_scope rfl ?_)
    have own := List.find?_some found
    rw [decide_eq_true_eq] at own
    exact own
  | channel id =>
    refine respects_found ?_ (fits_channel suits id)
    simp only [Invocation.ownChannel?, suits.guild]
    exact suits.agree.channel?_filter suits.unique suits.uniqueThere _
  | role id =>
    rw [perform, suits.guild]
    exact respects_found (suits.agree.role? id) (Value.everyView_found fun _ _ => admits_of_scope rfl trivial)
  | member userId =>
    rw [perform, suits.guild]
    exact respects_found (suits.agree.member? userId) (Value.everyView_found fun _ _ => admits_of_scope rfl trivial)
  | guildChannels guildId =>
    obtain rfl : guildId = t.guild := within
    exact respects_lookup
      (f := fun channels : List Channel => .array (channels.map fun ch => .view (.channel ch)))
      suits.agree.channels (Value.everyView_array fun _ => admits_channel)
  | guildRoles guildId =>
    obtain rfl : guildId = t.guild := within
    exact respects_lookup
      (f := fun roles : List Role => .array (roles.map fun r => .view (.role r)))
      suits.agree.roles (Value.everyView_array fun _ _ => admits_of_scope rfl trivial)
  | channelMessage channelId messageId =>
    obtain ⟨own, member, rfl⟩ := within
    exact respects_found (suits.agree.message? member messageId)
      (Value.everyView_found fun _ _ => admits_of_scope rfl trivial)
  | argument command name => exact Tenancy.respects_ofExcept fun _ => fits_argument
  -- Calls to the service that name the guild.
  | kick | ban | addRole | removeRole | deleteRole => exact respects_of_hasNoView (named rfl)
  | editRole roleId edit =>
    refine (Tenancy.respects_ofExcept fun _ _ => trivial).bind fun edit _ => ?_
    exact (named rfl).bind fun _ _ =>
      Tenancy.respects_pure (Value.everyView_view (admits_of_scope rfl trivial))
  -- Calls to the service that name no guild.
  | deleteChannel | deleteMessage | addReaction | clearReactions =>
    exact respects_of_hasNoView (unnamed rfl)
  | removeReaction channelId messageId emoji userId =>
    cases userId with
    | none =>
      have sent : t.Respects (fun _ => True)
          (Host.send (.removeReaction channelId messageId emoji none)) :=
        Tenancy.respects_service (Tenancy.respects_record_of_none rfl)
      exact sent.bind fun _ _ => Tenancy.respects_pure (Value.HasNoView.everyView rfl)
    | some userId => exact respects_of_hasNoView (unnamed rfl)
  | editChannel channelId edit =>
    refine (Tenancy.respects_ofExcept fun _ _ => trivial).bind fun edit _ => ?_
    exact (unnamed rfl).bind fun _ _ => Tenancy.respects_pure
      (Value.everyView_view ⟨fun _ => within, fun lookup => by cases lookup⟩)
  -- Saved messages.
  | savedMessage id =>
    have found : t.Respects (fun _ => True)
        (Host.call (.immediate (pure (inv.savedMessage? id)))) :=
      Tenancy.Respects.call (Tenancy.respects_pure trivial) fun _ _ _ => rfl
    exact found.bind fun m _ => Tenancy.respects_pure (Value.everyView_found fun _ _ => admits_of_scope rfl trivial)
  | savedMessageData message =>
    exact Tenancy.respects_ofExcept fun value read =>
      (Value.ofPlainJson_hasNoView (eq_ok_of_mapError read)).everyView
  -- The store.
  | storeSet handle key value seconds => exact respects_storeSet within key value seconds
  | storeGet handle key => exact respects_storeGet within key
  | storeDelete handle key => exact respects_storeDelete within key
  | storeIncrease handle key delta => exact respects_storeIncrease within key delta
  | storeSearch handle pattern => exact respects_storeSearch within pattern

end Call

end GuildSandbox

import GuildSandbox.Proofs.Capability.Cancelled
import GuildSandbox.Proofs.Tenancy.Calls

/-!
Runs that see one guild alone.

A script begins with the namespaces of its surface and goes on with the views that calls and
properties give it. Two hosts that agree on the guild of the interaction answer the script alike,
whatever they hold of other guilds, record the same calls and end with the same entries of the guild.
-/

set_option autoImplicit false
set_option relaxedAutoImplicit false

namespace GuildSandbox

namespace World

/-- The call that an event makes, if it makes one, with its result. -/
def exchange? (inv : Invocation) (w : World) : RunEvent → Option (Call × Except RunError Value)
  | .call view name args =>
    (view.method? name args).map fun c => (c, ((c.perform inv).run w).1)
  | _ => none

def exchanges (inv : Invocation) : World → List RunEvent → List (Call × Except RunError Value)
  | _, [] => []
  | w, event :: rest => (w.exchange? inv event).toList ++ exchanges inv (w.step inv event) rest

def gained (inv : Invocation) (w : World) (event : RunEvent) : List View :=
  match w.exchange? inv event with
  | some (c, .ok value) => c.gains value
  | _ => []

end World

/-- The event is none of the script's, and leaves the cache alone. -/
def RunEvent.passes : RunEvent → Bool
  | .cancel _ | .steps _ | .elapse _ => true
  | .call _ _ _ | .cache _ => false

/-- A script that holds some views can make a history. It calls methods of the views it holds, and
takes up the views in the values of calls and properties; channels that an option of a command names
are not taken up. -/
inductive Plays (inv : Invocation) : World → List View → List RunEvent → Prop
  | stop {w : World} {held : List View} : Plays inv w held []
  | read {w : World} {held : List View} {events : List RunEvent} {view : View} {name : String}
      {value : Value} (own : view ∈ held) (shown : view.property? inv name = some (.ok value))
      (then_ : Plays inv w (held ++ value.views) events) : Plays inv w held events
  | call {w : World} {held : List View} {events : List RunEvent} {view : View} {name : String}
      {args : List Value} (own : view ∈ held)
      (then_ : Plays inv (w.step inv (.call view name args))
        (held ++ w.gained inv (.call view name args)) events) :
      Plays inv w held (.call view name args :: events)
  | pass {w : World} {held : List View} {events : List RunEvent} {event : RunEvent}
      (passes : event.passes = true) (then_ : Plays inv (w.step inv event) held events) :
      Plays inv w held (event :: events)

namespace View

variable {P : View → Prop} {name : String} {value : Value}

private theorem embedValues_hasNoView {embeds : List Json} {values : List Value}
    (read : embedValues embeds = .ok values) : ∀ v ∈ values, v.HasNoView := by
  induction embeds generalizing values with
  | nil =>
    cases read
    exact fun v member => absurd member List.not_mem_nil
  | cons embed rest ih =>
    obtain ⟨first, here, read⟩ := exists_ok_of_bind read
    obtain ⟨others, there, read⟩ := exists_ok_of_bind read
    cases read
    exact List.forall_mem_cons.2
      ⟨Value.ofPlainJson_hasNoView (eq_ok_of_mapError here), ih there⟩

private theorem everyView_messageProperty {m : Message} (users : ∀ u, P (.user u))
    (attachments : ∀ a, P (.attachment a)) (shown : messageProperty? m name = some (.ok value)) :
    value.EveryView P := by
  unfold messageProperty? at shown
  split at shown
  case h_4 =>
    cases shown
    exact Value.everyView_view (users m.author)
  case h_5 =>
    obtain ⟨embeds, read, rfl⟩ := exists_ok_of_map (Option.some.inj shown)
    exact (Value.hasNoView_array (embedValues_hasNoView read)).everyView
  case h_6 =>
    cases shown
    exact Value.everyView_array fun a _ => attachments a
  case h_7 => cases shown
  all_goals
    cases shown
    exact Value.HasNoView.everyView rfl

private theorem everyView_contextProperty {i : Interaction} (members : ∀ m, P (.member m))
    (messages : ∀ m, P (.message m)) (commands : ∀ c, P (.command c))
    (shown : contextProperty? i name = some value) : value.EveryView P := by
  unfold contextProperty? at shown
  split at shown
  case h_4 =>
    cases shown
    exact (Value.hasNoView_ofText? _).everyView
  case h_5 =>
    cases shown
    exact Value.everyView_view (members i.member)
  case h_6 =>
    cases shown
    exact Value.everyView_found fun m _ => messages m
  case h_7 =>
    cases shown
    exact Value.everyView_found fun c _ => commands c
  case h_8 => cases shown
  all_goals
    cases shown
    exact Value.HasNoView.everyView rfl

private theorem everyView_memberProperty {m : Member} (users : ∀ u, P (.user u))
    (shown : memberProperty? m name = some value) : value.EveryView P := by
  unfold memberProperty? at shown
  split at shown
  case h_9 =>
    cases shown
    refine (Value.hasNoView_array fun item member => ?_).everyView
    obtain ⟨role, -, rfl⟩ := List.mem_map.1 member
    rfl
  case h_10 =>
    cases shown
    exact Value.everyView_view (users m.user)
  all_goals
    cases shown
    try first
      | exact Value.HasNoView.everyView rfl
      | exact (Value.hasNoView_ofText? _).everyView

private theorem everyView_property {view : View} {inv : Invocation}
    (shown : view.property? inv name = some (.ok value)) (t : Tenancy) :
    value.EveryView fun v => v.InScope t := by
  cases view with
  | message m =>
    exact everyView_messageProperty (fun _ => trivial) (fun _ => trivial) shown
  | store | savedMessages => cases shown
  | context =>
    obtain ⟨value, shown, same⟩ := Option.map_eq_some_iff.1 shown
    cases same
    exact everyView_contextProperty (fun _ => trivial) (fun _ => trivial) (fun _ => trivial) shown
  | member m =>
    obtain ⟨value, shown, same⟩ := Option.map_eq_some_iff.1 shown
    cases same
    exact everyView_memberProperty (fun _ => trivial) shown
  -- The others show texts and numbers only.
  | user | guild | channel | role | attachment | command | savedMessage =>
    obtain ⟨value, shown, same⟩ := Option.map_eq_some_iff.1 shown
    cases same
    first
      | unfold userProperty? at shown
      | unfold guildProperty? at shown
      | unfold channelProperty? at shown
      | unfold roleProperty? at shown
      | unfold attachmentProperty? at shown
      | unfold commandProperty? at shown
      | unfold savedMessageProperty? at shown
    split at shown
    all_goals
      cases shown
      try first
        | exact Value.HasNoView.everyView rfl
        | exact (Value.hasNoView_ofText? _).everyView

end View

private theorem Surface.scope_of_standard {inv : Invocation} {t : Tenancy}
    (own : inv.guildId = t.guild)
    (limits : StoreLimits) : ∀ p ∈ Surface.standard inv limits, p.2.InScope t := by
  have basic : ∀ p ∈ [("ctx", View.context),
      ("kv", .store { guild := inv.guildId, limits := limits })], p.2.InScope t :=
    List.forall_mem_cons.2 ⟨trivial, List.forall_mem_singleton.2 own⟩
  intro p member
  unfold standard at member
  split at member
  · rcases List.mem_append.1 member with before | here
    · exact basic p (List.mem_filter.1 before).1
    · obtain rfl := List.mem_singleton.1 here
      trivial
  · exact basic p member

/-- The saved messages of a guild among those that a host offers. -/
def Invocation.savedIn (inv : Invocation) (guildId : String) : Option (List SavedMessage) :=
  inv.savedMessages.map fun messages => messages.filter fun m => m.guildId = some guildId

/-- The invocations differ at most in the saved messages of other guilds. -/
structure Invocation.Alike (inv other : Invocation) : Prop where
  interaction : other.interaction = inv.interaction
  permissions : other.permissions = inv.permissions
  saved : other.savedIn inv.guildId = inv.savedIn inv.guildId

namespace Invocation

private theorem savedMessage?_eq (inv : Invocation) (id : String) : inv.savedMessage? id =
    ((inv.savedIn inv.guildId).getD []).find? fun m => m.id = id := by
  unfold savedMessage? savedIn
  cases inv.savedMessages with
  | none => rfl
  | some messages => simp [List.find?_filter, Bool.and_comm]

namespace Alike

variable {inv other : Invocation}

private theorem guildId (alike : inv.Alike other) : other.guildId = inv.guildId :=
  congrArg Interaction.guildId alike.interaction

private theorem savedMessage? (alike : inv.Alike other) (id : String) :
    other.savedMessage? id = inv.savedMessage? id := by
  rw [savedMessage?_eq, savedMessage?_eq, alike.guildId, alike.saved]

private theorem perform (alike : inv.Alike other) (c : Call) : c.perform other = c.perform inv := by
  have saved := alike.savedMessage?
  obtain ⟨interaction, permissions, messages⟩ := inv
  obtain ⟨_, _, others⟩ := other
  cases alike.interaction
  cases alike.permissions
  cases c with
  | savedMessage id => rw [Call.perform, Call.perform, saved]
  | removeReaction channelId messageId emoji userId => cases userId <;> rfl
  | _ => rfl

private theorem offers (alike : inv.Alike other) :
    other.savedMessages.isSome = inv.savedMessages.isSome := by
  have same := congrArg Option.isSome alike.saved
  rwa [savedIn, savedIn, Option.isSome_map, Option.isSome_map] at same

private theorem standard (alike : inv.Alike other) (limits : StoreLimits) :
    Surface.standard other limits = Surface.standard inv limits := by
  rw [Surface.standard, Surface.standard, alike.guildId, alike.offers]

private theorem property? (alike : inv.Alike other) (view : View) (name : String) :
    view.property? other name = view.property? inv name := by
  obtain ⟨same, -, -⟩ := alike
  cases view with
  | context =>
    change (View.contextProperty? _ _).map _ = (View.contextProperty? _ _).map _
    rw [same]
  | _ => rfl

end Alike

end Invocation

namespace Tenancy

variable {t : Tenancy} {inv : Invocation} {w v : World}

private theorem Relates.cancel (related : t.Relates w v) (reason : CancelReason) :
    t.Relates (w.cancel reason) (v.cancel reason) := by
  obtain ⟨store, rfl, -⟩ := related.other
  exact related.time w.clock _

private theorem Relates.pass (related : t.Relates w v) {event : RunEvent}
    (passes : event.passes = true) :
    t.Relates (w.step inv event) (v.step inv event) := by
  cases event with
  | cancel reason => exact related.cancel reason
  | steps n =>
    obtain ⟨store, rfl, -⟩ := related.other
    exact related.time w.clock _
  | elapse nanos => exact related.elapse nanos
  | call view name args => cases passes
  | cache change => cases passes

private theorem exchange?_of_passes {event : RunEvent} (passes : event.passes = true) :
    w.exchange? inv event = none := by
  cases event with
  | call view name args => cases passes
  | _ => rfl

def Fitting (t : Tenancy) (exchange : Call × Except RunError Value) : Prop :=
  ∀ value, exchange.2 = .ok value → exchange.1.Fits t value

private theorem Relates.call (related : t.Relates w v) (suits : t.Suits inv) {view : View}
    (scope : view.InScope t) (name : String) (args : List Value) :
    t.Relates (w.step inv (.call view name args)) (v.step inv (.call view name args)) ∧
      v.exchange? inv (.call view name args) = w.exchange? inv (.call view name args) ∧
      ∀ exchange ∈ w.exchange? inv (.call view name args), t.Fitting exchange := by
  simp only [World.step, World.exchange?]
  cases method : view.method? name args with
  | none => exact ⟨related, rfl, fun exchange made => by cases made⟩
  | some c =>
    obtain ⟨same, related, fits⟩ := c.respects_perform suits (scope.within method) w v related
    refine ⟨related, congrArg (fun result => some (c, result)) same.symm, ?_⟩
    rintro exchange made value ok
    cases made
    exact fits value ok

private theorem scope_of_gained {event : RunEvent}
    (fitting : ∀ exchange ∈ w.exchange? inv event, t.Fitting exchange) :
    ∀ u ∈ w.gained inv event, u.InScope t := by
  unfold World.gained
  cases made : w.exchange? inv event with
  | none => exact fun u gained => absurd gained List.not_mem_nil
  | some exchange =>
    obtain ⟨c, result⟩ := exchange
    cases result with
    | error e => exact fun u gained => absurd gained List.not_mem_nil
    | ok value => exact Call.Fits.scope_gains (fitting _ made value rfl)

structure Tracks (t : Tenancy) (inv : Invocation) (w v : World) (held : List View)
    (events : List RunEvent) : Prop where
  plays : Plays inv v held events
  after : t.Relates (w.after inv events) (v.after inv events)
  exchanges : v.exchanges inv events = w.exchanges inv events
  fitting : ∀ exchange ∈ w.exchanges inv events, t.Fitting exchange

private theorem Relates.tracks (related : t.Relates w v) (suits : t.Suits inv) {held : List View}
    {events : List RunEvent} (plays : Plays inv w held events) (scope : ∀ u ∈ held, u.InScope t) :
    t.Tracks inv w v held events := by
  induction plays generalizing v with
  | stop => exact ⟨.stop, related, rfl, fun exchange made => absurd made List.not_mem_nil⟩
  | read own shown _ ih =>
    have rest := ih related (List.forall_mem_append.2 ⟨scope, View.everyView_property shown t⟩)
    exact ⟨.read own shown rest.plays, rest.after, rest.exchanges, rest.fitting⟩
  | @call w held events view name args own _ ih =>
    obtain ⟨after, same, fits⟩ := related.call suits (scope view own) name args
    have rest := ih after (List.forall_mem_append.2 ⟨scope, scope_of_gained fits⟩)
    have gains : v.gained inv (.call view name args) = w.gained inv (.call view name args) := by
      rw [World.gained, World.gained, same]
    refine ⟨.call own (gains ▸ rest.plays), rest.after, ?_, ?_⟩
    · rw [World.exchanges, World.exchanges, same, rest.exchanges]
    · rw [World.exchanges]
      exact List.forall_mem_append.2 ⟨fun exchange made => fits exchange (Option.mem_toList.1 made),
        rest.fitting⟩
  | pass passes _ ih =>
    have rest := ih (related.pass passes) scope
    refine ⟨.pass passes rest.plays, rest.after, ?_, ?_⟩
    · rw [World.exchanges, World.exchanges, exchange?_of_passes passes,
        exchange?_of_passes passes, rest.exchanges]
    · rw [World.exchanges, exchange?_of_passes passes]
      exact rest.fitting

end Tenancy

namespace Invocation.Alike

variable {inv other : Invocation}

private theorem step (alike : inv.Alike other) (w : World) (event : RunEvent) :
    w.step other event = w.step inv event := by
  cases event with
  | call view name args =>
    simp only [World.step, alike.perform]
  | _ => rfl

private theorem after (alike : inv.Alike other) (w : World) (events : List RunEvent) :
    w.after other events = w.after inv events := by
  have steps : World.step other = World.step inv := funext fun w => funext fun e => alike.step w e
  rw [World.after, World.after, steps]

private theorem exchange? (alike : inv.Alike other) (w : World) (event : RunEvent) :
    w.exchange? other event = w.exchange? inv event := by
  cases event with
  | call view name args => simp only [World.exchange?, alike.perform]
  | _ => rfl

private theorem exchanges (alike : inv.Alike other) (w : World) (events : List RunEvent) :
    w.exchanges other events = w.exchanges inv events := by
  induction events generalizing w with
  | nil => rfl
  | cons event rest ih =>
    rw [World.exchanges, World.exchanges, alike.exchange?, alike.step, ih]

private theorem plays (alike : inv.Alike other) {w : World} {held : List View}
    {events : List RunEvent}
    (plays : Plays inv w held events) : Plays other w held events := by
  induction plays with
  | stop => exact .stop
  | read own shown _ ih => exact .read own ((alike.property? _ _).trans shown) ih
  | @call w held events view name args own _ ih =>
    refine .call own ?_
    rw [alike.step, World.gained, alike.exchange?]
    exact ih
  | pass passes _ ih => exact .pass passes (by rwa [alike.step])

end Invocation.Alike

namespace World

/-- The worlds differ at most in what they hold of other guilds than that of the invocation. -/
structure AgreeOn (inv : Invocation) (w v : World) : Prop where
  other : v = { w with cache := v.cache, store := v.store }
  cache : w.cache.AgreeOn inv.guildId inv.permissions.userId v.cache
  store : w.store.AgreeOn inv.guildId v.store

/-- A run sees one guild alone. Let two hosts agree on the guild of the interaction, differ
arbitrarily in other guilds, and have unique channels. Whatever a script does in one, short of taking
up a channel that an option of a command names, it can do in the other, with the same results, the
same calls on record and the same entries of the guild at the end. The calls of the run that name a
guild name this one, and the channels that are looked up are of this one. -/
theorem sees_one_guild {inv other : Invocation} {w v : World} (limits : StoreLimits)
    {events : List RunEvent} (alike : inv.Alike other) (agree : w.AgreeOn inv v)
    (unique : w.cache.UniqueChannels) (uniqueThere : v.cache.UniqueChannels)
    (plays : Plays inv w ((Surface.standard inv limits).map Prod.snd) events) :
    let now := w.after inv events
    let there := v.after other events
    Plays other v ((Surface.standard other limits).map Prod.snd) events ∧
      v.exchanges other events = w.exchanges inv events ∧
      there.rest.calls = now.rest.calls ∧ now.AgreeOn inv there ∧
      (∃ made, now.rest.calls = w.rest.calls ++ made ∧
        ∀ c ∈ made, ∀ id ∈ c.guildId?, id = inv.guildId) ∧
      ∀ c value, (c, .ok value) ∈ w.exchanges inv events → c.isLookup = true →
        ∀ channel, .channel channel ∈ value.views → channel.guildId = some inv.guildId := by
  intro now there
  let t : Tenancy := ⟨inv.guildId, w.cache, v.cache, w.rest.calls⟩
  have related : t.Relates w v :=
    ⟨rfl, ⟨v.store, agree.other, agree.store⟩, [], (List.append_nil _).symm, nofun⟩
  have suits : t.Suits inv := ⟨rfl, agree.cache, unique, uniqueThere⟩
  have scope : ∀ u ∈ (Surface.standard inv limits).map Prod.snd, u.InScope t :=
    List.forall_mem_map.2 (Surface.scope_of_standard suits.guild limits)
  have tracks := related.tracks suits plays scope
  have same : there = v.after inv events := alike.after v events
  obtain ⟨cache, ⟨store, after, kept⟩, calls⟩ := tracks.after
  refine ⟨?_, ?_, ?_, ?_, calls, ?_⟩
  · rw [alike.standard]
    exact alike.plays tracks.plays
  · rw [alike.exchanges, tracks.exchanges]
  · rw [same, after]
  · rw [same, after]
    exact ⟨rfl, cache.symm ▸ agree.cache, kept⟩
  · exact fun c value made lookup channel shown =>
      (tracks.fitting _ made value rfl _ shown).own lookup channel rfl

end World

def sharedGuild : Guild := { (default : Guild) with id := "42", name := "ours" }

def sharedChannel : Channel := { (default : Channel) with id := "9", guildId := some "42" }

def foreignEntry : Entry :=
  { guild := "13", key := "k", value := "secret", createdAt := ⟨0, 0⟩, updatedAt := ⟨0, 0⟩ }

def sharedWorld : World :=
  { freshWorld with
    cache := {
      guilds := [{ (default : Guild) with id := "13" }, sharedGuild]
      channels := [{ (default : Channel) with id := "66", guildId := some "13" }, sharedChannel]
      members := [("13", [default])] }
    store := .memory { guilds := [("13", [("k", foreignEntry)])] } }

def lonelyWorld : World :=
  { freshWorld with
    cache := { guilds := [sharedGuild], channels := [sharedChannel] } }

theorem sharedWorld_seesOneGuild :
    let kv : View := .store { guild := "42", limits := {} }
    let events : List RunEvent := [.call .context "get_channel" [.str "66"],
      .call .context "get_guild" [], .call (.guild sharedGuild) "get_channels" [],
      .call (.channel sharedChannel) "get_message" [.str "1"], .elapse 5,
      .call kv "set" [.str "k", .int 1], .call kv "get" [.str "k"]]
    let held := (Surface.standard plainInvocation {}).map Prod.snd
    Plays plainInvocation sharedWorld held events ∧
      Plays plainInvocation lonelyWorld held events ∧
      lonelyWorld.exchanges plainInvocation events =
        sharedWorld.exchanges plainInvocation events := by
  intro kv events held
  have alike : plainInvocation.Alike plainInvocation := ⟨rfl, rfl, rfl⟩
  have agree : sharedWorld.AgreeOn plainInvocation lonelyWorld :=
    ⟨rfl, ⟨rfl, rfl, rfl, rfl, fun _ _ => rfl, rfl⟩, (rfl : ([] : Keyspace) = [])⟩
  have plays : Plays plainInvocation sharedWorld held events := by
    have store {others : List View} : kv ∈ held ++ others :=
      List.mem_cons_of_mem _ List.mem_cons_self
    refine .call List.mem_cons_self (.call List.mem_cons_self (.call ?guild (.call ?channel
      (.pass rfl (.call store (.call store .stop))))))
    case guild | channel => exact List.mem_append_right _ (List.mem_singleton.2 rfl)
  obtain ⟨playsThere, same, -⟩ :=
    World.sees_one_guild {} alike agree (by decide +kernel) (by decide +kernel) plays
  exact ⟨plays, playsThere, same⟩

end GuildSandbox

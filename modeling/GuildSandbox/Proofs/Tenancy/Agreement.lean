import GuildSandbox.Host.Cache
import GuildSandbox.Proofs.Store.Failure

set_option autoImplicit false
set_option relaxedAutoImplicit false

namespace GuildSandbox

namespace Cache

def UniqueChannels (c : Cache) : Prop := (c.channels.map Channel.id).Nodup

instance (c : Cache) : Decidable c.UniqueChannels :=
  inferInstanceAs (Decidable (c.channels.map Channel.id).Nodup)

/-- The caches hold the same of a guild, and the same current permissions of a user. -/
structure AgreeOn (guild user : String) (c d : Cache) : Prop where
  record : c.guild? guild = d.guild? guild
  channels : c.guildChannels guild = d.guildChannels guild
  roles : c.guildRoles guild = d.guildRoles guild
  members : (Dict.find? guild c.members).getD [] = (Dict.find? guild d.members).getD []
  messages : ∀ channel ∈ c.guildChannels guild,
    (c.messages.filter fun m => m.channelId = channel.id) =
      d.messages.filter fun m => m.channelId = channel.id
  permissions : c.livePermissions? user = d.livePermissions? user

/-- Where ids are unique, a channel found by its id and then taken only if it is of the guild is
found among the channels of the guild. -/
theorem channel?_filter {c : Cache} (unique : c.UniqueChannels) (guild id : String) :
    ((c.channel? id).filter fun channel => channel.guildId = some guild) =
      (c.guildChannels guild).find? fun channel => channel.id = id := by
  unfold channel? guildChannels
  unfold UniqueChannels at unique
  generalize c.channels = channels at unique ⊢
  induction channels with
  | nil => rfl
  | cons channel rest ih =>
    obtain ⟨fresh, unique⟩ := List.nodup_cons.1 unique
    by_cases here : channel.id = id
    · have absent : (rest.filter fun c => c.guildId = some guild).find? (fun c => c.id = id) =
          none := by
        refine List.find?_eq_none.2 fun other member found => fresh ?_
        have same : other.id = channel.id := (of_decide_eq_true found).trans here.symm
        rw [← same]
        exact List.mem_map_of_mem (List.mem_filter.1 member).1
      by_cases own : channel.guildId = some guild
      · simp [here, own]
      · simp [here, own, absent]
    · by_cases own : channel.guildId = some guild
      · simpa [here, own] using ih unique
      · simpa [here, own] using ih unique

variable {guild user : String} {c d : Cache}

theorem AgreeOn.channel?_filter (agree : c.AgreeOn guild user d) (unique : c.UniqueChannels)
    (uniqueThere : d.UniqueChannels) (id : String) :
    ((c.channel? id).filter fun channel => channel.guildId = some guild) =
      (d.channel? id).filter fun channel => channel.guildId = some guild := by
  rw [Cache.channel?_filter unique, Cache.channel?_filter uniqueThere, agree.channels]

theorem AgreeOn.role? (agree : c.AgreeOn guild user d) (id : String) :
    c.role? guild id = d.role? guild id := by
  rw [Cache.role?, Cache.role?, agree.roles]

theorem AgreeOn.member? (agree : c.AgreeOn guild user d) (id : String) :
    c.member? guild id = d.member? guild id := by
  rw [Cache.member?, Cache.member?, agree.members]

private theorem message?_eq (c : Cache) (channelId id : String) : c.message? channelId id =
    (c.messages.filter fun m => m.channelId = channelId).find? fun m => m.id = id := by
  simp [Cache.message?, List.find?_filter]

theorem AgreeOn.message? (agree : c.AgreeOn guild user d) {channel : Channel}
    (own : channel ∈ c.guildChannels guild) (id : String) :
    c.message? channel.id id = d.message? channel.id id := by
  rw [message?_eq, message?_eq, agree.messages channel own]

end Cache

/-- The files load alike, and a write is blocked in both or in none. -/
def GuildFile.Alike (a b : GuildFile) : Prop := a.load = b.load ∧ (a = .blocked ↔ b = .blocked)

private theorem GuildFile.Alike.save {a b : GuildFile} (alike : a.Alike b) (space : Keyspace) :
    a.save space = b.save space := by
  obtain ⟨loads, blocked⟩ := alike
  cases a with
  | blocked => rw [blocked.1 rfl]
  | missing | text =>
    cases b with
    | missing | text => rfl
    | unreadable cause => cases loads
    | blocked => cases blocked.2 rfl
  | unreadable cause =>
    cases b with
    | missing | text | blocked => cases loads
    | unreadable other =>
      cases loads
      rfl

namespace Store

open Time (Instant)

def AgreeOn (guild : String) : Store → Store → Prop
  | .memory m, .memory n => m.keyspace guild = n.keyspace guild
  | .files f, .files g => (f.file guild).Alike (g.file guild)
  | _, _ => False

variable {guild : String} {s t : Store} {now : Instant} {α β : Type}

private theorem AgreeOn.load (agree : s.AgreeOn guild t) : s.load guild = t.load guild := by
  match s, t with
  | .memory m, .memory n => exact congrArg Except.ok agree
  | .files f, .files g =>
    simp only [Store.load, LineFileStore.load]
    rw [show (f.file guild).load = (g.file guild).load from agree.1]
  | .memory _, .files _ => cases agree
  | .files _, .memory _ => cases agree

private theorem AgreeOn.keep (agree : s.AgreeOn guild t) (space : Keyspace) (changed : Bool) :
    (∃ e, s.keep guild space changed = .error e ∧ t.keep guild space changed = .error e) ∨
      ∃ s' t', s.keep guild space changed = .ok s' ∧ t.keep guild space changed = .ok t' ∧
        s'.AgreeOn guild t' := by
  match s, t with
  | .memory m, .memory n =>
    refine .inr ⟨_, _, rfl, rfl, ?_⟩
    simp [AgreeOn]
  | .files f, .files g =>
    cases changed with
    | false => exact .inr ⟨_, _, rfl, rfl, agree⟩
    | true =>
      have saves : (f.file guild).save space = (g.file guild).save space :=
        GuildFile.Alike.save agree space
      simp only [Store.keep, if_true, LineFileStore.save, ← saves]
      cases (f.file guild).save space with
      | error e => exact .inl ⟨e, rfl, rfl⟩
      | ok file =>
        refine .inr ⟨_, _, rfl, rfl, ?_⟩
        simp [AgreeOn, LineFileStore.file, Dict.find?_insert_self, GuildFile.Alike]
  | .memory _, .files _ => cases agree
  | .files _, .memory _ => cases agree

/-- Stores that agree on the guild give the action the same result, and still agree after it. -/
def Confined (guild : String) (now : Instant) (action : StoreAction α) : Prop :=
  ∀ s t : Store, s.AgreeOn guild t → (s.run now action).1 = (t.run now action).1 ∧
    (s.run now action).2.AgreeOn guild (t.run now action).2

private theorem confined_liftM (result : Except StoreError α) :
    Confined guild now (liftM result : StoreAction α) := by
  intro s t agree
  rw [run_liftM, run_liftM]
  exact ⟨rfl, agree⟩

private theorem Confined.bind {action : StoreAction α} {next : α → StoreAction β}
    (first : Confined guild now action) (rest : ∀ a, Confined guild now (next a)) :
    Confined guild now (action >>= next) := by
  intro s t agree
  obtain ⟨same, agree⟩ := first s t agree
  rw [run_bind, run_bind]
  rcases here : s.run now action with ⟨result, s'⟩
  rcases there : t.run now action with ⟨_, t'⟩
  rw [here, there] at same agree
  cases same
  cases result with
  | error e => exact ⟨rfl, agree⟩
  | ok a => exact rest a s' t' agree

theorem Confined.map {action : StoreAction α} (confined : Confined guild now action) (f : α → β) :
    Confined guild now (f <$> action) := by
  intro s t agree
  obtain ⟨same, after⟩ := confined s t agree
  rw [run_map, run_map, same]
  exact ⟨rfl, after⟩

theorem confined_look (ask : Keyspace → Instant → α) :
    Confined guild now (look guild ask) := by
  intro s t agree
  cases loaded : s.load guild with
  | ok space =>
    rw [run_look loaded, run_look (agree.load ▸ loaded)]
    exact ⟨rfl, agree⟩
  | error e =>
    rw [run_look_of_error loaded, run_look_of_error (agree.load ▸ loaded)]
    exact ⟨rfl, agree⟩

theorem confined_change (counts : α → Bool)
    (operation : Keyspace → Instant → Except StoreError α × Keyspace) :
    Confined guild now (change guild counts operation) := by
  intro s t agree
  cases loaded : s.load guild with
  | ok space =>
    have loadedThere := agree.load ▸ loaded
    obtain ⟨e, fails, failsThere⟩ | ⟨s', t', kept, keptThere, agree⟩ :=
      agree.keep (operation space now).2 (isChange counts (operation space now).1)
    · rw [run_change_of_unkept loaded fails, run_change_of_unkept loadedThere failsThere]
      exact ⟨rfl, agree⟩
    · rw [run_change loaded rfl kept, run_change loadedThere rfl keptThere]
      exact ⟨rfl, agree⟩
  | error e =>
    rw [run_change_of_error loaded, run_change_of_error (agree.load ▸ loaded)]
    exact ⟨rfl, agree⟩

end Store

namespace StoreHandle

open Time (Instant)

variable (h : StoreHandle) (now : Instant)

def ConfinedRequest {α : Type} (guild : String) (now : Instant) (r : StoreRequest α) : Prop :=
  ∀ action, r = .ok action → Store.Confined guild now action

theorem confined_set (key : String) (value : Value) (lifetime : Option Nat) (written : Instant) :
    ConfinedRequest h.guild now (h.set key value lifetime written) := by
  intro action made
  obtain ⟨entry, own, rfl⟩ := exists_set_of_ok made
  exact own ▸ Store.confined_change _ _

theorem confined_get (key : String) : ConfinedRequest h.guild now (h.get key) := by
  rintro action ⟨⟩
  exact (Store.confined_look _).bind fun entry => Store.confined_liftM _

theorem confined_delete (key : String) : ConfinedRequest h.guild now (h.delete key) := by
  rintro action ⟨⟩
  exact (Store.confined_change _ _).bind fun entry => Store.confined_liftM _

theorem confined_increase (key : String) (delta : Int64) :
    ConfinedRequest h.guild now (h.increase key delta) := by
  intro action made
  obtain ⟨-, -, made⟩ := exists_ok_of_bind made
  cases made
  exact (Store.confined_change _ _).bind fun entry => Store.confined_liftM _

theorem confined_search (pattern : String) : ConfinedRequest h.guild now (h.search pattern) := by
  rintro action ⟨⟩
  exact (Store.confined_look _).bind fun entries => Store.confined_liftM _

end StoreHandle

end GuildSandbox

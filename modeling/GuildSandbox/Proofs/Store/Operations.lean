import GuildSandbox.Proofs.Store.Expiry
import GuildSandbox.Proofs.Store.Failure

set_option autoImplicit false
set_option relaxedAutoImplicit false

namespace GuildSandbox

open Time (Instant)

namespace Store

variable {guild : String} {now : Instant} {α β : Type}

/-- The second store is the first one, or the first with a keyspace kept for a guild. -/
def LeavesKept (s : Store) (guild : String) (left : Keyspace) (kept : Store) : Prop :=
  kept = s ∨ ∃ changed, s.keep guild left changed = .ok kept

/-- The action fails as the keyspace of a guild fails to load, or the store cannot keep what its
operation leaves of that keyspace, or it has the result of the operation and keeps that. -/
def ActsOn (guild : String) (now : Instant) (action : StoreAction α)
    (operation : Keyspace → Except StoreError α × Keyspace) : Prop :=
  ∀ s : Store, match s.load guild with
    | .error e => s.run now action = (.error e, s)
    | .ok space => (∃ e, s.run now action = (.error e, s)) ∨
      ∃ kept, s.run now action = ((operation space).1, kept) ∧
        s.LeavesKept guild (operation space).2 kept

private theorem actsOn_look (guild : String) (now : Instant) (ask : Keyspace → Instant → α) :
    ActsOn guild now (look guild ask) fun space => (.ok (ask space now), space) := by
  intro s
  cases loaded : s.load guild with
  | error e => exact run_look_of_error loaded now ask
  | ok space => exact .inr ⟨s, run_look loaded now ask, .inl rfl⟩

private theorem actsOn_change (guild : String) (now : Instant) (counts : α → Bool)
    (operation : Keyspace → Instant → Except StoreError α × Keyspace) :
    ActsOn guild now (change guild counts operation) fun space => operation space now := by
  intro s
  cases loaded : s.load guild with
  | error e => exact run_change_of_error loaded now counts operation
  | ok space =>
    cases keeps : s.keep guild (operation space now).2
        (isChange counts (operation space now).1) with
    | error e => exact .inl ⟨e, run_change_of_unkept loaded keeps⟩
    | ok kept => exact .inr ⟨kept, run_change loaded rfl keeps, .inr ⟨_, keeps⟩⟩

private theorem ActsOn.map {action : StoreAction α}
    {operation : Keyspace → Except StoreError α × Keyspace}
    (acts : ActsOn guild now action operation) (f : α → β) :
    ActsOn guild now (f <$> action) fun space =>
      ((operation space).1.map f, (operation space).2) := by
  intro s
  have ran := acts s
  cases loaded : s.load guild with
  | error e =>
    rw [loaded] at ran
    simp only [run_map, ran]
    rfl
  | ok space =>
    rw [loaded] at ran
    obtain ⟨e, failed⟩ | ⟨kept, ran, leaves⟩ := ran
    · exact .inl ⟨e, by rw [run_map, failed]; rfl⟩
    · exact .inr ⟨kept, by rw [run_map, ran], leaves⟩

end Store

namespace StoreOperation

variable (o : StoreOperation) (now : Instant)

private theorem actsOn_perform :
    Store.ActsOn o.guild now o.perform fun space => o.onKeyspace space now := by
  cases o with
  | set entry maxKeys => exact (Store.actsOn_change _ _ _ _).map _
  | update guild key maxKeys next => exact (Store.actsOn_change _ _ _ _).map _
  | delete guild key => exact (Store.actsOn_change _ _ _ _).map _
  | get guild key => exact (Store.actsOn_look _ _ _).map _
  | count guild => exact (Store.actsOn_look _ _ _).map _
  | search guild pattern => exact (Store.actsOn_look _ _ _).map _

theorem run_of_error {s : Store} {e : StoreError} (fails : s.load o.guild = .error e) :
    s.run now o.perform = (.error e, s) := by
  have ran := o.actsOn_perform now s
  rwa [fails] at ran

/-- An operation fails and leaves the store alone, or answers what the keyspace of its guild
answers and keeps what is left of that. -/
theorem run_cases (s : Store) :
    (∃ e, s.run now o.perform = (.error e, s)) ∨
      ∃ space kept, s.load o.guild = .ok space ∧
        s.run now o.perform = ((o.onKeyspace space now).1, kept) ∧
        s.LeavesKept o.guild (o.onKeyspace space now).2 kept := by
  have ran := o.actsOn_perform now s
  cases loaded : s.load o.guild with
  | error e => exact .inl ⟨e, o.run_of_error now loaded⟩
  | ok space =>
    rw [loaded] at ran
    obtain failed | ⟨kept, ran, leaves⟩ := ran
    · exact .inl failed
    · exact .inr ⟨space, kept, rfl, ran, leaves⟩

theorem run_of_refused (f : LineFileStore)
    (refused : LineFileStore.isGuildName o.guild = false) :
    (Store.files f).run now o.perform = (.error (.invalidGuild o.guild), .files f) :=
  o.run_of_error now (by rw [Store.load, LineFileStore.load, if_neg (by simp [refused])])

end StoreOperation

end GuildSandbox

import GuildSandbox.Proofs.Store.Failure
import GuildSandbox.Proofs.Store.Lookup

set_option autoImplicit false
set_option relaxedAutoImplicit false

namespace GuildSandbox.Store

open Time (Instant)

/-- The keyspace of the guild can be read, as this one, and written. -/
def Serves (s : Store) (guild : String) (space : Keyspace) : Prop :=
  match s with
  | .memory m => m.keyspace guild = space
  | .files f => LineFileStore.isGuildName guild = true ∧ (f.file guild).Holds space

/-- The store holds a well-formed keyspace for the guild, which can be read and written. -/
structure Holds (s : Store) (guild : String) (space : Keyspace) : Prop where
  formed : space.WellFormed
  serves : s.Serves guild space

def IsEmptyFor (s : Store) (guild : String) : Prop :=
  s = .memory {} ∨ s = .files {} ∧ LineFileStore.isGuildName guild = true

variable {α : Type} {s : Store} {guild : String} {space left : Keyspace} {now : Instant}

theorem IsEmptyFor.holds (empty : s.IsEmptyFor guild) : s.Holds guild [] := by
  refine ⟨Keyspace.wellFormed_nil, ?_⟩
  rcases empty with rfl | ⟨rfl, named⟩
  · rfl
  · exact ⟨named, rfl, by simp [LineFileStore.file, Dict.find?]⟩

namespace Holds

theorem load (holds : s.Holds guild space) : s.load guild = .ok space := by
  match s, holds.serves with
  | .memory m, same => exact congrArg Except.ok same
  | .files f, ⟨named, loads, _⟩ => exact load_files_eq_ok.2 ⟨named, loads⟩

private theorem exists_keep (holds : s.Holds guild space) (formed : left.WellFormed)
    (changed : Bool) :
    ∃ kept after, s.keep guild left changed = .ok kept ∧ kept.Holds guild after ∧
      (after = left ∨ changed = false ∧ after = space) := by
  match s, holds.serves with
  | .memory m, _ =>
    refine ⟨_, left, rfl, ⟨formed, ?_⟩, .inl rfl⟩
    exact m.keyspace_withKeyspace_self guild left
  | .files f, ⟨named, file⟩ =>
    cases changed with
    | false => exact ⟨_, space, rfl, holds, .inr ⟨rfl, rfl⟩⟩
    | true =>
      refine ⟨_, left, keep_files_of_save (GuildFile.save_of_holds file left),
        ⟨formed, named, ?_⟩, .inl rfl⟩
      rw [LineFileStore.file_withFile_self]
      exact GuildFile.holds_textOfEntries formed

private theorem keep_of_ne (holds : s.Holds guild space) {other : String}
    (different : guild ≠ other)
    {changed : Bool} {kept : Store} (keeps : s.keep other left changed = .ok kept) :
    kept.Holds guild space := by
  refine ⟨holds.formed, ?_⟩
  match s, holds.serves with
  | .memory m, same =>
    cases keeps
    exact (MemoryStore.keyspace_withKeyspace_of_ne different m left).trans same
  | .files f, ⟨named, file⟩ =>
    obtain ⟨-, rfl⟩ | ⟨-, -, rfl⟩ := keep_files_cases keeps
    · exact ⟨named, file⟩
    · refine ⟨named, ?_⟩
      rwa [LineFileStore.file_withFile_of_ne different]

theorem run_look (holds : s.Holds guild space) (now : Instant) (ask : Keyspace → Instant → α) :
    s.run now (look guild ask) = (.ok (ask space now), s) :=
  Store.run_look holds.load now ask

theorem run_get (holds : s.Holds guild space) (now : Instant) (key : String) :
    s.run now (Store.get guild key) = (.ok (space.get? key now), s) :=
  holds.run_look now fun space now => space.get? key now

/-- The action has the result of its operation, and the store holds what that leaves, or what it held
before when nothing has changed. -/
private theorem run_change (holds : s.Holds guild space) {counts : α → Bool}
    {operation : Keyspace → Instant → Except StoreError α × Keyspace}
    (formed : (operation space now).2.WellFormed) :
    ∃ kept after, s.run now (change guild counts operation) = ((operation space now).1, kept) ∧
      kept.Holds guild after ∧ (after = (operation space now).2 ∨
        isChange counts (operation space now).1 = false ∧ after = space) := by
  obtain ⟨kept, after, keeps, holdsAfter, which⟩ :=
    holds.exists_keep formed (isChange counts (operation space now).1)
  exact ⟨kept, after, Store.run_change holds.load rfl keeps, holdsAfter, which⟩

theorem run_set {entry : Entry} (holds : s.Holds entry.guild space) (valid : entry.Valid)
    (maxKeys : Nat) :
    ∃ kept after, s.run now (Store.set entry maxKeys) = ((space.set entry maxKeys now).1, kept) ∧
      kept.Holds entry.guild after ∧ (after = (space.set entry maxKeys now).2 ∨
        isChange (fun _ => true) (space.set entry maxKeys now).1 = false ∧ after = space) :=
  holds.run_change (holds.formed.set valid maxKeys now)

theorem run_update (holds : s.Holds guild space) (instant : now.Valid) (key : String) (maxKeys : Nat)
    (next : Option Entry → Except StoreError String) :
    ∃ kept after, s.run now (Store.update guild key maxKeys next) =
        ((space.update guild key maxKeys next now).1, kept) ∧
      kept.Holds guild after ∧ (after = (space.update guild key maxKeys next now).2 ∨
        isChange (fun _ => true) (space.update guild key maxKeys next now).1 = false ∧
          after = space) :=
  holds.run_change (holds.formed.update guild key maxKeys next instant)

theorem run_delete (holds : s.Holds guild space) (now : Instant) (key : String) :
    ∃ kept after, s.run now (Store.delete guild key) = (.ok (space.delete key now).1, kept) ∧
      kept.Holds guild after ∧ (after = (space.delete key now).2 ∨
        isChange Option.isSome (.ok (space.delete key now).1) = false ∧ after = space) := by
  rw [Store.delete]
  exact holds.run_change (holds.formed.delete key now)

theorem run_change_of_ne (holds : s.Holds guild space) {other : String} (different : guild ≠ other)
    (counts : α → Bool) (operation : Keyspace → Instant → Except StoreError α × Keyspace) :
    (s.run now (change other counts operation)).2.Holds guild space := by
  obtain ⟨e, unchanged⟩ | ⟨_, kept, _, keeps, ran⟩ := change_cases s other now counts operation
  · rw [unchanged]
    exact holds
  · rw [ran]
    exact holds.keep_of_ne different keeps

end Holds

end GuildSandbox.Store

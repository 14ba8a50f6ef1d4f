import GuildSandbox.Proofs.Store.Agreement
import GuildSandbox.Proofs.Value.Stored
import GuildSandbox.Proofs.Value.Views
import GuildSandbox.Store.Guild

/-!
What failing operations do to a store.

The live entries of a guild are what its scripts can see. An operation that fails before or inside
its one action on the store leaves them as they are. One that takes an entry out and only then cannot
read its text fails after the store has changed.
-/

set_option autoImplicit false
set_option relaxedAutoImplicit false

namespace GuildSandbox

open Time (Instant)

namespace Keyspace

private theorem purge_delete (space : Keyspace) (key : String) (now : Instant) :
    (space.delete key now).2.purge now = Dict.erase key (space.purge now) := by
  change Keyspace.purge (Dict.erase key (space.purge now)) now = _
  unfold Dict.erase
  rw [purge, List.filter_comm]
  exact congrArg _ (purge_self space now)

theorem updated_of_update {space : Keyspace} {guild key : String} {maxKeys : Nat}
    {next : Option Entry → Except StoreError String} {now : Instant} {entry : Entry}
    (written : (space.update guild key maxKeys next now).1 = .ok entry) :
    (space.purge now).updated guild key maxKeys next now = .ok entry := by
  simp only [update] at written
  split at written
  next here =>
    cases written
    exact here
  next => cases written

private theorem next_of_updated {space : Keyspace} {guild key : String} {maxKeys : Nat}
    {next : Option Entry → Except StoreError String} {now : Instant} {entry : Entry}
    (written : space.updated guild key maxKeys next now = .ok entry) :
    next (Dict.find? key space) = .ok entry.value := by
  obtain ⟨old, value, found, made, rfl⟩ | ⟨value, absent, -, made, rfl⟩ := updated_cases written
  · rw [found, made]
  · rw [absent, made]

end Keyspace

namespace Store

def live (s : Store) (guild : String) (now : Instant) : Except StoreError Keyspace :=
  (s.load guild).map fun space => space.purge now

variable {s kept : Store} {guild : String} {space left : Keyspace} {now : Instant} {changed : Bool}
  {α β : Type}

theorem live_of_load (loaded : s.load guild = .ok space) :
    s.live guild now = .ok (space.purge now) := by
  rw [live, loaded]
  rfl

theorem load_of_keep_of_ne (keeps : s.keep guild left changed = .ok kept) {other : String}
    (different : other ≠ guild) : kept.load other = s.load other := by
  match s with
  | .memory m =>
    cases keeps
    simp only [load, MemoryStore.keyspace_withKeyspace_of_ne different]
  | .files f =>
    obtain ⟨-, rfl⟩ | ⟨-, -, rfl⟩ := keep_files_cases keeps
    · rfl
    · simp only [load, LineFileStore.load, LineFileStore.file_withFile_of_ne different]

theorem live_of_keep_of_ne (keeps : s.keep guild left changed = .ok kept) {other : String}
    (different : other ≠ guild) (now : Instant) : kept.live other now = s.live other now := by
  rw [live, live, load_of_keep_of_ne keeps different]

/-- The live part of what is kept for a guild. A file is not written when nothing has changed. -/
private theorem live_of_keep (loaded : s.load guild = .ok space)
    (keeps : s.keep guild left changed = .ok kept)
    (formed : space.WellFormed → left.WellFormed)
    (quiet : space.WellFormed → changed = false → left.purge now = space.purge now) :
    kept.live guild now = .ok (left.purge now) := by
  match s with
  | .memory m =>
    cases keeps
    refine live_of_load ?_
    simp only [load, MemoryStore.keyspace_withKeyspace_self]
  | .files f =>
    obtain ⟨named, reads⟩ := load_files_eq_ok.1 loaded
    have spaceFormed := GuildFile.wellFormed_of_load reads
    obtain ⟨unchanged, rfl⟩ | ⟨-, -, rfl⟩ := keep_files_cases keeps
    · rw [live_of_load loaded, quiet spaceFormed unchanged]
    · refine live_of_load (load_files_eq_ok.2 ⟨named, ?_⟩)
      rw [LineFileStore.file_withFile_self]
      exact (GuildFile.holds_textOfEntries (formed spaceFormed)).1

private theorem exists_keep (loaded : s.load guild = .ok space) (held : space ≠ [])
    (left : Keyspace)
    (changed : Bool) : ∃ kept, s.keep guild left changed = .ok kept := by
  match s with
  | .memory m => exact ⟨_, rfl⟩
  | .files f =>
    cases changed with
    | false => exact ⟨_, rfl⟩
    | true =>
      obtain ⟨-, reads⟩ := load_files_eq_ok.1 loaded
      cases stands : f.file guild with
      | text content =>
        have written : (f.file guild).save left =
            .ok (.text (GuildFile.textOfEntries left.entries)) := by
          rw [stands]
          rfl
        exact ⟨_, keep_files_of_save written⟩
      | missing | blocked =>
        rw [stands] at reads
        exact absurd (Except.ok.inj reads).symm held
      | unreadable cause =>
        rw [stands] at reads
        cases reads

/-- An action that changes a keyspace fails and leaves the store alone, or has the result of its
operation and keeps what that leaves. -/
theorem change_cases (s : Store) (guild : String) (now : Instant) (counts : α → Bool)
    (operation : Keyspace → Instant → Except StoreError α × Keyspace) :
    (∃ e, s.run now (change guild counts operation) = (.error e, s)) ∨
      ∃ space kept, s.load guild = .ok space ∧
        s.keep guild (operation space now).2 (isChange counts (operation space now).1) = .ok kept ∧
        s.run now (change guild counts operation) = ((operation space now).1, kept) := by
  cases loaded : s.load guild with
  | error e => exact .inl ⟨e, run_change_of_error loaded now counts operation⟩
  | ok space =>
    cases keeps : s.keep guild (operation space now).2 (isChange counts (operation space now).1) with
    | error e => exact .inl ⟨e, run_change_of_unkept loaded keeps⟩
    | ok kept => exact .inr ⟨space, kept, rfl, keeps, run_change loaded rfl keeps⟩

def Spares (now : Instant) (action : StoreAction α) : Prop :=
  ∀ (s left : Store) (e : StoreError), s.run now action = (.error e, left) →
    ∀ guild, left.live guild now = s.live guild now

private theorem spares_change {guild : String} {counts : α → Bool}
    {operation : Keyspace → Instant → Except StoreError α × Keyspace}
    (purged : ∀ space e, (operation space now).1 = .error e →
      (operation space now).2 = space.purge now) :
    Spares now (change guild counts operation) := by
  intro s left e fails other
  obtain ⟨e', unchanged⟩ | ⟨space, kept, loaded, keeps, ran⟩ :=
    change_cases s guild now counts operation
  · rw [unchanged] at fails
    cases fails
    rfl
  · rw [ran] at fails
    obtain ⟨failed, rfl⟩ := Prod.mk.inj fails
    rw [failed, purged space e failed] at keeps
    by_cases own : other = guild
    · subst own
      rw [live_of_keep loaded keeps (fun formed => formed.filter _)
        fun _ _ => Keyspace.purge_self space now, Keyspace.purge_self, live_of_load loaded]
    · exact live_of_keep_of_ne keeps own now

theorem run_look_snd (s : Store) (guild : String) (now : Instant) (ask : Keyspace → Instant → α) :
    (s.run now (look guild ask)).2 = s := by
  cases loaded : s.load guild with
  | ok space => rw [run_look loaded]
  | error e => rw [run_look_of_error loaded]

private theorem fails_bind_liftM {s left : Store} {action : StoreAction α}
    {f : α → Except StoreError β}
    {e : StoreError} (fails : s.run now (action >>= fun a => liftM (f a)) = (.error e, left)) :
    s.run now action = (.error e, left) ∨
      ∃ a, s.run now action = (.ok a, left) ∧ f a = .error e := by
  rw [run_bind] at fails
  rcases ran : s.run now action with ⟨_ | a, after⟩
  all_goals rw [ran] at fails
  · cases fails
    exact .inl rfl
  · simp only [run_liftM, Prod.mk.injEq] at fails
    obtain ⟨failed, rfl⟩ := fails
    exact .inr ⟨a, rfl, failed⟩

theorem succeeds_bind_liftM {s : Store} {action : StoreAction α} {f : α → Except StoreError β}
    {b : β} (ok : (s.run now (action >>= fun a => liftM (f a))).1 = .ok b) : ∃ a, f a = .ok b := by
  rw [run_bind] at ok
  rcases outcome : s.run now action with ⟨_ | a, left⟩
  all_goals rw [outcome] at ok
  · cases ok
  · simp only [run_liftM] at ok
    exact ⟨a, ok⟩

/-- An action that only looks leaves the store as it is, whatever is computed from what it finds. -/
private theorem spares_look {guild : String} {ask : Keyspace → Instant → α}
    {f : α → Except StoreError β} :
    Spares now (look guild ask >>= fun a => (liftM (f a) : StoreAction β)) := by
  intro s left e fails other
  have same := s.run_look_snd guild now ask
  rcases fails_bind_liftM fails with failed | ⟨a, ran, -⟩
  · rw [failed] at same
    cases same
    rfl
  · rw [ran] at same
    cases same
    rfl

private theorem Spares.map {action : StoreAction α} (spares : Spares now action) (f : α → β) :
    Spares now (f <$> action) := by
  intro s left e fails
  rw [run_map] at fails
  obtain ⟨failed, rfl⟩ := Prod.mk.inj fails
  refine spares s _ e (Prod.ext ?_ rfl)
  cases ran : (s.run now action).1 with
  | error e' =>
    rw [ran] at failed
    cases failed
    rfl
  | ok a =>
    rw [ran] at failed
    cases failed

end Store

namespace StoreHandle

variable {h : StoreHandle} {now : Instant}

theorem exists_set_of_ok {key : String} {value : Value} {lifetime : Option Nat}
    {written : Instant} {action : StoreAction Unit}
    (made : h.set key value lifetime written = .ok action) :
    ∃ entry, entry.guild = h.guild ∧ action = Store.set entry h.limits.maxKeys := by
  unfold set at made
  obtain ⟨-, -, made⟩ := exists_ok_of_bind made
  obtain ⟨text, -, made⟩ := exists_ok_of_bind made
  split at made
  · cases made
  · cases made
    exact ⟨_, rfl, rfl⟩

theorem increased_cases {key : String} {delta : Int64} {current : Option Entry} {value : Value}
    (made : increased key delta current = .ok value) :
    (∃ n, value = .int n) ∨ ∃ entry f, current = some entry ∧ value = .float f := by
  cases current with
  | none =>
    cases made
    exact .inl ⟨delta, rfl⟩
  | some entry =>
    obtain ⟨stored, -, made⟩ := exists_ok_of_bind made
    split at made
    · split at made
      · cases made
        exact .inl ⟨_, rfl⟩
      · cases made
    · cases made
      exact .inr ⟨entry, _, rfl, rfl⟩
    · cases made

theorem valueOf_eq_ok {entry : Entry} {value : Value}
    (reads : Value.ofJsonText entry.value = .ok value) : valueOf entry = .ok value := by
  rw [valueOf, reads]
  rfl

theorem reads_sum {key text : String} {delta : Int64} {current : Option Entry}
    (written : increased key delta current >>= valueText = .ok text) :
    ∃ sum, increased key delta current = .ok sum ∧ sum.toJsonText = .ok text ∧
      Value.ofJsonText text = .ok sum := by
  obtain ⟨sum, made, encoded⟩ := exists_ok_of_bind written
  have text := eq_ok_of_mapError encoded
  have ordered : sum.InKeyOrder := by
    rcases increased_cases made with ⟨n, rfl⟩ | ⟨entry, f, -, rfl⟩ <;> trivial
  exact ⟨sum, made, text, Value.ofJsonText_of_toJsonText ordered text⟩

end StoreHandle

inductive StoreCommand where
  | set (key : String) (value : Value) (lifetime : Option Nat)
  | get (key : String)
  | delete (key : String)
  | increase (key : String) (delta : Int64)
  | search (pattern : String)

namespace StoreCommand

/-- What a request does at an instant, and what it gives back, as a value. -/
def action (h : StoreHandle) (now : Instant) : StoreCommand → StoreAction Value
  | .set key value lifetime =>
    (fun _ => .unit) <$> StoreRequest.toAction (h.set key value lifetime now)
  | .get key => (h.get key).toAction
  | .delete key => (h.delete key).toAction
  | .increase key delta => StoreRequest.toAction (h.increase key delta)
  | .search pattern =>
    (fun found => .map (Dict.ofPairs found)) <$> (h.search pattern).toAction

/-- The request has changed the store by the time it fails: it has taken out an entry whose text
cannot be read. -/
def FailsLate (h : StoreHandle) (s left : Store) (now : Instant) (e : StoreError) :
    StoreCommand → Prop
  | .delete key => ∃ space entry, s.live h.guild now = .ok space ∧
      Dict.find? key space = some entry ∧ StoreHandle.valueOf entry = .error e ∧
      left.live h.guild now = .ok (Dict.erase key space)
  | _ => False

variable {h : StoreHandle} {s left : Store} {now : Instant} {e : StoreError}

private theorem spares_set (key : String) (value : Value) (lifetime : Option Nat) :
    Store.Spares now ((set key value lifetime).action h now) := by
  refine Store.Spares.map ?_ _
  cases made : h.set key value lifetime now with
  | error e =>
    rintro s left e' fails guild
    cases fails
    rfl
  | ok action =>
    obtain ⟨entry, -, rfl⟩ := StoreHandle.exists_set_of_ok made
    exact Store.spares_change fun space e failed => Keyspace.set_of_error failed

private theorem delete_fails {key : String}
    (fails : s.run now ((delete key).action h now) = (.error e, left)) :
    (∀ guild, left.live guild now = s.live guild now) ∨
      (∀ guild ≠ h.guild, left.live guild now = s.live guild now) ∧
        (delete key).FailsLate h s left now e := by
  have purged : ∀ (space : Keyspace) (e : StoreError),
      (Except.ok (space.delete key now).1 : Except StoreError (Option Entry)) = .error e →
        (space.delete key now).2 = space.purge now := nofun
  rcases Store.fails_bind_liftM fails with failed | ⟨removed, ran, unread⟩
  · exact .inl (Store.spares_change purged s left e failed)
  · obtain ⟨e', unchanged⟩ | ⟨space, kept, loaded, keeps, done⟩ :=
      Store.change_cases s h.guild now Option.isSome fun space now =>
        (.ok (space.delete key now).1, (space.delete key now).2)
    · cases unchanged.symm.trans ran
    · cases done.symm.trans ran
      cases found : Dict.find? key (space.purge now) with
      | none =>
        rw [show (space.delete key now).1 = none from found] at unread
        cases unread
      | some entry =>
        rw [show (space.delete key now).1 = some entry from found] at unread
        refine .inr ⟨fun guild other => Store.live_of_keep_of_ne keeps other now,
          space.purge now, entry, Store.live_of_load loaded, found, unread, ?_⟩
        rw [Store.live_of_keep loaded keeps (fun formed => formed.delete key now)
          fun _ quiet => ?_]
        · exact congrArg Except.ok (Keyspace.purge_delete space key now)
        · rw [show (space.delete key now).1 = some entry from found] at quiet
          cases quiet

private theorem spares_increase (key : String) (delta : Int64) :
    Store.Spares now ((increase key delta).action h now) := by
  intro s left e fails
  cases checked : h.checkKey key with
  | error refusal =>
    have refused : (increase key delta).action h now = throw refusal := by
      simp only [action, StoreHandle.increase, checked]
      rfl
    rw [refused] at fails
    cases fails
    exact fun _ => rfl
  | ok _ =>
    have allowed : (increase key delta).action h now =
        (Store.update h.guild key h.limits.maxKeys (fun current => do
          StoreHandle.valueText (← StoreHandle.increased key delta current)) >>= fun entry =>
            liftM (StoreHandle.valueOf entry)) := by
      simp only [action, StoreHandle.increase, checked]
      rfl
    rw [allowed] at fails
    rcases Store.fails_bind_liftM fails with failed | ⟨entry, ran, unread⟩
    · exact Store.spares_change (fun space e failed => Keyspace.update_of_error failed)
        s left e failed
    · -- What has been written is the text of the sum, and that can be read.
      obtain ⟨e', unchanged⟩ | ⟨space, kept, loaded, keeps, done⟩ :=
        Store.change_cases s h.guild now (fun _ => true) fun space now =>
          space.update h.guild key h.limits.maxKeys (fun current => do
            StoreHandle.valueText (← StoreHandle.increased key delta current)) now
      · cases unchanged.symm.trans ran
      · obtain ⟨written, rfl⟩ := Prod.mk.inj (done.symm.trans ran)
        have made := Keyspace.next_of_updated (Keyspace.updated_of_update written)
        obtain ⟨sum, -, -, reads⟩ := StoreHandle.reads_sum made
        cases (StoreHandle.valueOf_eq_ok reads).symm.trans unread

/-- When a request fails, the live entries of every guild are those before, unless it has taken an entry
of its own guild out before it failed to read the text of that. -/
theorem live_after_failure {c : StoreCommand}
    (fails : s.run now (c.action h now) = (.error e, left)) :
    (∀ guild, left.live guild now = s.live guild now) ∨
      (∀ guild ≠ h.guild, left.live guild now = s.live guild now) ∧ c.FailsLate h s left now e := by
  cases c with
  | set key value lifetime => exact .inl (spares_set key value lifetime s left e fails)
  | get key => exact .inl (Store.spares_look s left e fails)
  | delete key => exact delete_fails fails
  | increase key delta => exact .inl (spares_increase key delta s left e fails)
  | search pattern => exact .inl (Store.spares_look.map _ s left e fails)

private theorem delete_of_unreadable {key : String} {space : Keyspace} {entry : Entry}
    (live : s.live h.guild now = .ok space) (found : Dict.find? key space = some entry)
    (unread : StoreHandle.valueOf entry = .error e) :
    ∃ left, s.run now ((delete key).action h now) = (.error e, left) ∧
      left.live h.guild now = .ok (Dict.erase key space) := by
  obtain ⟨before, loaded, rfl⟩ := exists_ok_of_map live
  have held : before ≠ [] := by
    rintro rfl
    cases found
  have removed : (before.delete key now).1 = some entry := found
  obtain ⟨left, keeps⟩ := Store.exists_keep loaded held (before.delete key now).2 true
  have taken : s.run now (Store.delete h.guild key) = (.ok (some entry), left) :=
    Store.run_change loaded (Prod.ext (congrArg Except.ok removed) rfl) keeps
  refine ⟨left, ?_, ?_⟩
  · change s.run now (Store.delete h.guild key >>= fun entry =>
      liftM (StoreHandle.valueOf? entry)) = _
    simp only [Store.run_bind, taken, Store.run_liftM]
    exact congrArg (fun result => (result, left)) unread
  · rw [Store.live_of_keep loaded keeps (fun formed => formed.delete key now) nofun]
    exact congrArg Except.ok (Keyspace.purge_delete before key now)

end StoreCommand

/-- An entry that an older program, or a hand, has left in a text of its own. -/
def spoiltEntry : Entry :=
  { guild := "1", key := "k", value := "garbage", createdAt := ⟨0, 0⟩, updatedAt := ⟨0, 0⟩ }

def spoiltStore : Store := .memory { guilds := [("1", [("k", spoiltEntry)])] }

theorem spoiltStore_increase :
    let h : StoreHandle := { guild := "1", limits := {} }
    let after := spoiltStore.run ⟨0, 0⟩ ((StoreCommand.increase "k" 1).action h ⟨0, 0⟩)
    after.1 = .error (.value .json) ∧ after.2.live "1" ⟨0, 0⟩ = .ok [("k", spoiltEntry)] := by
  intro h after
  have kept : after.2 = spoiltStore := by decide +kernel
  have fails : after = (.error (.value .json), spoiltStore) := Prod.ext rfl kept
  rcases StoreCommand.live_after_failure (h := h) fails with same | ⟨-, late⟩
  · rw [fails]
    exact ⟨rfl, same "1"⟩
  · exact late.elim

/-- A failing request can change what its guild sees: the spoilt entry is gone once it has been asked
to be taken out, although that fails. -/
theorem spoiltStore_delete : ¬ ∀ (h : StoreHandle) (c : StoreCommand) (s left : Store)
    (now : Instant) (e : StoreError), s.run now (c.action h now) = (.error e, left) →
      left.live h.guild now = s.live h.guild now := by
  intro claim
  let h : StoreHandle := { guild := "1", limits := {} }
  have live : spoiltStore.live "1" ⟨0, 0⟩ = .ok [("k", spoiltEntry)] := rfl
  obtain ⟨left, fails, gone⟩ := StoreCommand.delete_of_unreadable (h := h) (e := .value .json)
    live (rfl : Dict.find? "k" _ = some spoiltEntry) rfl
  have kept := claim h (.delete "k") spoiltStore left ⟨0, 0⟩ _ fails
  rw [gone, show spoiltStore.live h.guild ⟨0, 0⟩ = _ from live] at kept
  cases kept

end GuildSandbox

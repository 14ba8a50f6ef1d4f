import GuildSandbox.Store.Basic

set_option autoImplicit false
set_option relaxedAutoImplicit false

namespace GuildSandbox.Store

open Time (Instant)

variable {α β : Type}

theorem run_bind (s : Store) (now : Instant) (action : StoreAction α) (next : α → StoreAction β) :
    s.run now (action >>= next) = match s.run now action with
      | (.ok a, left) => left.run now (next a)
      | (.error e, left) => (.error e, left) := by
  have same : s.run now action = action now s := rfl
  change ExceptT.bind (action now) (fun a => next a now) s = _
  rw [same]
  simp only [ExceptT.bind, ExceptT.mk, bind, StateT.bind]
  rcases action now s with ⟨_ | _, left⟩ <;> rfl

theorem run_liftM (s : Store) (now : Instant) (result : Except StoreError α) :
    s.run now (liftM result) = (result, s) := by
  cases result <;> rfl

theorem run_map (s : Store) (now : Instant) (f : α → β) (action : StoreAction α) :
    s.run now (f <$> action) = ((s.run now action).1.map f, (s.run now action).2) := by
  rw [map_eq_pure_bind, run_bind]
  rcases s.run now action with ⟨_ | _, left⟩ <;> rfl

theorem run_look {s : Store} {guild : String} {space : Keyspace} (loaded : s.load guild = .ok space)
    (now : Instant) (ask : Keyspace → Instant → α) :
    s.run now (look guild ask) = (.ok (ask space now), s) := by
  have state : s.run now (getThe Store) = (.ok s, s) := rfl
  simp only [look, run_bind, state, loaded, run_liftM]
  rfl

theorem run_look_of_error {s : Store} {guild : String} {e : StoreError}
    (fails : s.load guild = .error e) (now : Instant) (ask : Keyspace → Instant → α) :
    s.run now (look guild ask) = (.error e, s) := by
  have state : s.run now (getThe Store) = (.ok s, s) := rfl
  simp only [look, run_bind, state, fails, run_liftM]

theorem run_change {s kept : Store} {guild : String} {space left : Keyspace} {now : Instant}
    {counts : α → Bool} {operation : Keyspace → Instant → Except StoreError α × Keyspace}
    {result : Except StoreError α} (loaded : s.load guild = .ok space)
    (done : operation space now = (result, left))
    (keeps : s.keep guild left (isChange counts result) = .ok kept) :
    s.run now (change guild counts operation) = (result, kept) := by
  have state : s.run now (getThe Store) = (.ok s, s) := rfl
  have instant : s.run now read = (.ok now, s) := rfl
  have set : s.run now (MonadStateOf.set kept) = (.ok (), kept) := rfl
  simp only [change, run_bind, state, loaded, run_liftM, instant, done, keeps, set]

theorem run_change_of_error {s : Store} {guild : String} {e : StoreError}
    (fails : s.load guild = .error e) (now : Instant) (counts : α → Bool)
    (operation : Keyspace → Instant → Except StoreError α × Keyspace) :
    s.run now (change guild counts operation) = (.error e, s) := by
  have state : s.run now (getThe Store) = (.ok s, s) := rfl
  simp only [change, run_bind, state, fails, run_liftM]

theorem run_change_of_unkept {s : Store} {guild : String} {space : Keyspace} {now : Instant}
    {e : StoreError} {counts : α → Bool}
    {operation : Keyspace → Instant → Except StoreError α × Keyspace}
    (loaded : s.load guild = .ok space)
    (fails : s.keep guild (operation space now).2 (isChange counts (operation space now).1) =
      .error e) :
    s.run now (change guild counts operation) = (.error e, s) := by
  have state : s.run now (getThe Store) = (.ok s, s) := rfl
  have instant : s.run now read = (.ok now, s) := rfl
  simp only [change, run_bind, state, loaded, run_liftM, instant, fails]

theorem exists_error_of_isChange {result : Except StoreError α}
    (quiet : isChange (fun _ => true) result = false) : ∃ e, result = .error e := by
  cases result with
  | ok a => cases quiet
  | error e => exact ⟨e, rfl⟩

end GuildSandbox.Store

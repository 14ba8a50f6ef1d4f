import GuildSandbox.Proofs.Store.Lines
import GuildSandbox.Proofs.Value.Views

set_option autoImplicit false
set_option relaxedAutoImplicit false

namespace GuildSandbox

open Time (Instant)

theorem Entry.isLive_of_le {e : Entry} {now later : Instant} (order : now ≤ later)
    (live : e.isLive later = true) : e.isLive now = true := by
  unfold Entry.isLive Entry.isExpired at *
  cases h : e.expiresAt with
  | none => simp
  | some t =>
    simp only [h, Bool.not_eq_true', decide_eq_false_iff_not] at live ⊢
    exact fun early => live (Instant.le_trans early order)

namespace Keyspace

/-- The keyspace is in key order with every entry under its own key, and all instants exist. -/
structure WellFormed (space : Keyspace) : Prop where
  ordered : Dict.Ordered space
  keyed : ∀ p ∈ space, p.2.key = p.1
  valid : ∀ p ∈ space, p.2.Valid

variable {space other : Keyspace} {now later : Instant}

theorem wellFormed_nil : WellFormed [] := ⟨List.Pairwise.nil, by simp, by simp⟩

theorem WellFormed.filter (h : space.WellFormed) (p : String × Entry → Bool) :
    WellFormed (space.filter p) :=
  ⟨h.ordered.filter _, fun q member => h.keyed q (List.mem_filter.1 member).1,
    fun q member => h.valid q (List.mem_filter.1 member).1⟩

theorem WellFormed.insert (h : space.WellFormed) {entry : Entry} {key : String}
    (same : entry.key = key) (valid : entry.Valid) : WellFormed (Dict.insert key entry space) := by
  refine ⟨Dict.ordered_insert h.ordered, fun p member => ?_, fun p member => ?_⟩
  · rcases Dict.mem_insert member with rfl | member
    · exact same
    · exact h.keyed p member
  · rcases Dict.mem_insert member with rfl | member
    · exact valid
    · exact h.valid p member

theorem WellFormed.find? (h : space.WellFormed) {key : String} {entry : Entry}
    (found : Dict.find? key space = some entry) : entry.key = key ∧ entry.Valid := by
  have member := (Dict.find?_eq_some_iff h.ordered).1 found
  exact ⟨h.keyed _ member, h.valid _ member⟩

private theorem wellFormed_ofEntries {entries : List Entry} (valid : ∀ e ∈ entries, e.Valid) :
    (ofEntries entries).WellFormed := by
  have origin {p : String × Entry} (member : p ∈ ofEntries entries) :
      ∃ e ∈ entries, p = (e.key, e) := by
    obtain ⟨e, here, rfl⟩ := List.mem_map.1 (Dict.mem_of_mem_ofPairs member)
    exact ⟨e, here, rfl⟩
  refine ⟨Dict.ordered_ofPairs _, fun p member => ?_, fun p member => ?_⟩
  · obtain ⟨e, -, rfl⟩ := origin member
    rfl
  · obtain ⟨e, here, rfl⟩ := origin member
    exact valid e here

theorem ofEntries_entries (h : space.WellFormed) : ofEntries space.entries = space := by
  have keyed : space.entries.map (fun e => (e.key, e)) = space := by
    have same : ∀ p ∈ space, ((fun e : Entry => (e.key, e)) ∘ Prod.snd) p = id p :=
      fun p member => Prod.ext (h.keyed p member) rfl
    rw [entries, List.map_map, List.map_congr_left same, List.map_id]
  rw [ofEntries, keyed, Dict.ofPairs_of_ordered h.ordered]

theorem purge_purge (order : now ≤ later) : (space.purge now).purge later = space.purge later := by
  rw [purge, purge, List.filter_filter]
  refine List.filter_congr fun p _ => ?_
  have live := Entry.isLive_of_le (e := p.2) order
  cases h : p.2.isLive later
  · simp
  · simp [live h]

theorem find?_purge (h : space.WellFormed) (key : String) (now : Instant) :
    Dict.find? key (space.purge now) = space.get? key now :=
  Dict.find?_filter h.ordered key _

theorem purge_self (space : Keyspace) (now : Instant) :
    (space.purge now).purge now = space.purge now :=
  purge_purge (Instant.le_refl now)

/-- An update that succeeds revises the entry that it finds, or there is room for a new one. -/
theorem updated_cases {guild key : String} {maxKeys : Nat}
    {next : Option Entry → Except StoreError String} {entry : Entry}
    (written : space.updated guild key maxKeys next now = .ok entry) :
    (∃ old value, Dict.find? key space = some old ∧ next (some old) = .ok value ∧
      entry = { old with value := value, updatedAt := now }) ∨
    (∃ value, Dict.find? key space = none ∧ space.length < maxKeys ∧ next none = .ok value ∧
      entry =
        { guild := guild, key := key, value := value, createdAt := now, updatedAt := now }) := by
  unfold Keyspace.updated at written
  split at written
  next old found =>
    obtain ⟨value, made, same⟩ := exists_ok_of_bind written
    exact .inl ⟨old, value, found, made, (Except.ok.inj same).symm⟩
  next absent =>
    split at written
    next => cases written
    next room =>
      obtain ⟨value, made, same⟩ := exists_ok_of_bind written
      exact .inr ⟨value, absent, Nat.lt_of_not_le room, made, (Except.ok.inj same).symm⟩

theorem WellFormed.set (h : space.WellFormed) {entry : Entry} (valid : entry.Valid) (maxKeys : Nat)
    (now : Instant) : (space.set entry maxKeys now).2.WellFormed := by
  have live := h.filter fun p => p.2.isLive now
  simp only [Keyspace.set]
  split
  next old found =>
    have created := (live.find? found).2.2.1
    exact live.insert rfl ⟨valid.1, created, valid.2.2⟩
  next absent =>
    split
    · exact live
    · exact live.insert rfl valid

private theorem WellFormed.updated (h : space.WellFormed) {guild key : String} {maxKeys : Nat}
    {next : Option Entry → Except StoreError String} (instant : now.Valid) {entry : Entry}
    (written : space.updated guild key maxKeys next now = .ok entry) :
    entry.key = key ∧ entry.Valid := by
  obtain ⟨old, value, found, -, rfl⟩ | ⟨value, -, -, -, rfl⟩ := updated_cases written
  · obtain ⟨same, expires, created, -⟩ := h.find? found
    exact ⟨same, expires, created, instant⟩
  · exact ⟨rfl, by simp, instant, instant⟩

theorem WellFormed.update (h : space.WellFormed) (guild key : String) (maxKeys : Nat)
    (next : Option Entry → Except StoreError String) (instant : now.Valid) :
    (space.update guild key maxKeys next now).2.WellFormed := by
  have live := h.filter fun p => p.2.isLive now
  simp only [Keyspace.update]
  split
  next entry written =>
    obtain ⟨same, valid⟩ := live.updated instant written
    exact live.insert same valid
  next => exact live

theorem WellFormed.delete (h : space.WellFormed) (key : String) (now : Instant) :
    (space.delete key now).2.WellFormed :=
  (h.filter fun p => p.2.isLive now).filter _

theorem set_of_error {entry : Entry} {maxKeys : Nat} {e : StoreError}
    (failed : (space.set entry maxKeys now).1 = .error e) :
    (space.set entry maxKeys now).2 = space.purge now := by
  simp only [Keyspace.set] at failed ⊢
  split at failed
  next => cases failed
  next absent =>
    split at failed
    next full => rw [if_pos full]
    next => cases failed

theorem update_of_error {guild key : String} {maxKeys : Nat}
    {next : Option Entry → Except StoreError String} {e : StoreError}
    (failed : (space.update guild key maxKeys next now).1 = .error e) :
    (space.update guild key maxKeys next now).2 = space.purge now := by
  simp only [Keyspace.update] at failed ⊢
  split at failed
  next => cases failed
  next => rfl

theorem delete_of_absent (h : space.WellFormed) {key : String}
    (absent : (space.delete key now).1 = none) : (space.delete key now).2 = space.purge now :=
  Dict.erase_of_find?_eq_none (h.filter _).ordered absent

end Keyspace

theorem GuildFile.wellFormed_of_load {file : GuildFile} {space : Keyspace}
    (loaded : file.load = .ok space) : space.WellFormed := by
  cases file with
  | missing | blocked =>
    cases loaded
    exact Keyspace.wellFormed_nil
  | unreadable cause => cases loaded
  | text content =>
    cases loaded
    refine Keyspace.wellFormed_ofEntries fun e member => ?_
    obtain ⟨line, -, read⟩ := List.mem_filterMap.1 member
    unfold entryOfLine? at read
    simp only at read
    split at read
    · cases read
    · obtain ⟨j, -, read⟩ := Option.bind_eq_some_iff.1 read
      exact Entry.valid_ofJson? read

end GuildSandbox

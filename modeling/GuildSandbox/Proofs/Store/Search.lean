import GuildSandbox.Capability.Call
import GuildSandbox.Proofs.Host.Actions
import GuildSandbox.Proofs.Store.Calls
import GuildSandbox.Proofs.Store.Pattern
import GuildSandbox.Proofs.Text.ByteOrder

/-!
Searches are exact and ordered.

Every keyspace that a store comes to hold is in key order with each entry under its own key, also one
that is read from a file of any text. So a search gives each live entry whose key matches once, in the
order of the bytes of the keys. A handle gives the values of those entries, or fails where one of them
has a text that cannot be decoded.
-/

set_option autoImplicit false
set_option relaxedAutoImplicit false

namespace GuildSandbox

open Time (Instant)

namespace Keyspace

variable {space : Keyspace} {now : Instant} {key pattern : String} {entry : Entry}

theorem WellFormed.purge (formed : space.WellFormed) (now : Instant) : (space.purge now).WellFormed :=
  formed.filter _

theorem WellFormed.key_of_get? (formed : space.WellFormed) (found : space.get? key now = some entry) :
    entry.key = key :=
  (formed.find? (Option.filter_eq_some_iff.1 found).1).1

theorem WellFormed.mem_entries (formed : space.WellFormed) :
    entry ∈ space.entries ↔ Dict.find? entry.key space = some entry := by
  rw [Dict.find?_eq_some_iff formed.ordered]
  constructor
  · intro member
    obtain ⟨p, there, rfl⟩ := List.mem_map.1 member
    have own : p.2.key = p.1 := formed.keyed p there
    rw [own]
    exact there
  · exact fun there => List.mem_map_of_mem there

theorem WellFormed.entries_pairwise (formed : space.WellFormed) :
    space.entries.Pairwise fun a b => a.key < b.key := by
  refine List.pairwise_map.2 (formed.ordered.imp_of_mem fun {p q} memberP memberQ before => ?_)
  have ownP : p.2.key = p.1 := formed.keyed p memberP
  have ownQ : q.2.key = q.1 := formed.keyed q memberQ
  rwa [ownP, ownQ]

private theorem WellFormed.mem_entries_purge (formed : space.WellFormed) :
    entry ∈ (space.purge now).entries ↔ space.get? entry.key now = some entry := by
  rw [(formed.purge now).mem_entries, find?_purge_eq_get? formed.ordered]

private theorem WellFormed.mem_search (formed : space.WellFormed) :
    space.get? key now = some entry ∧ Pattern.Splits pattern.toList key.toList ↔
      entry ∈ space.search pattern now ∧ entry.key = key := by
  rw [search, List.mem_filter, formed.mem_entries_purge, Pattern.isMatch_iff]
  constructor
  · rintro ⟨found, splits⟩
    obtain rfl := formed.key_of_get? found
    exact ⟨⟨found, splits⟩, rfl⟩
  · rintro ⟨both, rfl⟩
    exact both

private theorem WellFormed.search_pairwise (formed : space.WellFormed) :
    (space.search pattern now).Pairwise fun a b => a.key < b.key :=
  List.Pairwise.filter _ (formed.purge now).entries_pairwise

private theorem isMatch_percent (text : String) : Pattern.isMatch "%" text = true := by
  rw [Pattern.isMatch_iff]
  exact Pattern.splits_percent.2 ⟨text.toList.length, Pattern.splits_nil.2 List.drop_length⟩

private theorem length_search_percent (space : Keyspace) (now : Instant) :
    (space.search "%" now).length = space.count now := by
  rw [search, List.filter_eq_self.2 fun e _ => isMatch_percent e.key, entries, List.length_map, count]

end Keyspace

namespace StoreHandle

variable {found : List Entry} {pairs : List (String × Value)} {entry : Entry} {e : StoreError}

private theorem valueOf_eq_error_iff :
    (∃ e, valueOf entry = .error e) ↔ ∃ cause, Value.ofJsonText entry.value = .error cause := by
  rw [valueOf]
  cases Value.ofJsonText entry.value <;> simp [Except.mapError]

private theorem pairs_of_valuesOf (made : valuesOf found = .ok pairs) :
    pairs.map Prod.fst = found.map Entry.key ∧
      ∀ p ∈ pairs, ∃ entry ∈ found, p.1 = entry.key ∧ valueOf entry = .ok p.2 := by
  induction found generalizing pairs with
  | nil =>
    cases made
    exact ⟨rfl, nofun⟩
  | cons entry rest ih =>
    obtain ⟨value, here, made⟩ := exists_ok_of_bind made
    obtain ⟨others, there, made⟩ := exists_ok_of_bind made
    cases made
    obtain ⟨keys, origins⟩ := ih there
    refine ⟨congrArg (entry.key :: ·) keys, List.forall_mem_cons.2 ⟨?_, fun p member => ?_⟩⟩
    · exact ⟨entry, List.mem_cons_self, rfl, here⟩
    · obtain ⟨origin, member, read⟩ := origins p member
      exact ⟨origin, List.mem_cons_of_mem _ member, read⟩

private theorem valuesOf_eq_error_iff : (∃ e, valuesOf found = .error e) ↔
    ∃ entry ∈ found, ∃ e, valueOf entry = .error e := by
  induction found with
  | nil => simp [valuesOf]
  | cons entry rest ih =>
    rw [valuesOf, List.exists_mem_cons_iff, ← ih]
    cases valueOf entry with
    | error e => simp [bind, Except.bind]
    | ok value => cases valuesOf rest <;> simp [bind, Except.bind, pure, Except.pure]

end StoreHandle

namespace Store

variable {s start : Store} {calls : List (Instant × StoreCall)} {guild : String} {space : Keyspace}

private theorem exists_files_of_keep {f : LineFileStore} {kept : Store} {changed : Bool}
    (keeps : (files f).keep guild space changed = .ok kept) : ∃ g, kept = files g := by
  obtain ⟨-, same⟩ | ⟨-, -, same⟩ := keep_files_cases keeps
  · exact ⟨f, same⟩
  · exact ⟨_, same⟩

private theorem exists_files_afterCalls (f : LineFileStore) (calls : List (Instant × StoreCall)) :
    ∃ g, (files f).afterCalls calls = files g := by
  induction calls generalizing f with
  | nil => exact ⟨f, rfl⟩
  | cons event rest ih =>
    suffices kept : ∃ g, (event.2.run (files f) event.1).2 = files g by
      obtain ⟨g, kept⟩ := kept
      rw [afterCalls, List.foldl_cons, kept]
      exact ih g
    obtain same | ⟨α, counts, operation, same⟩ := event.2.run_snd_cases (files f) event.1
    · exact ⟨f, same⟩
    · rw [same]
      obtain ⟨e, failed⟩ | ⟨space, kept, -, keeps, ran⟩ :=
        change_cases (files f) event.2.guild event.1 counts operation
      · exact ⟨f, congrArg Prod.snd failed⟩
      · rw [ran]
        exact exists_files_of_keep keeps

/-- Whatever a store comes to hold for a guild is well formed, and so is what stands in its files. -/
theorem wellFormed_of_load_afterCalls (begins : start = memory {} ∨ ∃ f, start = files f)
    (valid : ∀ event ∈ calls, event.2.Valid event.1)
    (loaded : (start.afterCalls calls).load guild = .ok space) : space.WellFormed := by
  rcases begins with rfl | ⟨f, rfl⟩
  · have empty : (memory {}).IsEmptyFor guild := .inl rfl
    obtain ⟨left, holds⟩ := empty.holds.afterCalls valid
    cases holds.load.symm.trans loaded
    exact holds.formed
  · obtain ⟨g, kept⟩ := exists_files_afterCalls f calls
    rw [kept] at loaded
    exact GuildFile.wellFormed_of_load (load_files_eq_ok.1 loaded).2

private theorem run_search_handle (loaded : s.load guild = .ok space) (now : Instant)
    {h : StoreHandle}
    (own : h.guild = guild) (pattern : String) :
    s.run now (h.search pattern).toAction = (StoreHandle.valuesOf (space.search pattern now), s) := by
  subst own
  change s.run now (Store.search h.guild pattern >>= fun found =>
    liftM (StoreHandle.valuesOf found)) = _
  rw [run_bind, Store.search, run_look loaded]
  exact run_liftM s now _

private theorem run_get_handle (loaded : s.load guild = .ok space) (now : Instant) {h : StoreHandle}
    (own : h.guild = guild) (key : String) :
    s.run now (h.get key).toAction = (StoreHandle.valueOf? (space.get? key now), s) := by
  subst own
  change s.run now (Store.get h.guild key >>= fun entry =>
    liftM (StoreHandle.valueOf? entry)) = _
  rw [run_bind, Store.get, run_look loaded]
  exact run_liftM s now _

end Store

namespace Host

universe u

variable {α : Type} {w left : World} {a : α}

/-- A call that succeeds gives what its effect gives, by when nothing else has become of the store. -/
private theorem exists_effect_of_call {c : HostCall α} (ok : (call c).run w = (.ok a, left)) :
    ∃ v : World, v.store = w.store ∧ (c.effect.run v).1 = .ok a := by
  rw [run_call] at ok
  split at ok
  · cases ok
  · rw [run_settle] at ok
    split at ok
    next dropped =>
      split at dropped <;> cases dropped
      cases ok
    next result after settled =>
      split at settled
      · cases settled
      · obtain ⟨clock, account, later⟩ := exists_time_elapse w.idled (c.wait w.idled)
        cases settled
        split at ok
        · cases ok
        · exact ⟨_, (congrArg World.store later).trans rfl, congrArg Prod.fst ok⟩

private theorem exists_run_of_onStore {action : StoreAction α}
    (ok : ((onStore action).run w).1 = .ok a) :
    ∃ t, (w.store.run t action).1 = .ok a := by
  have ignores : IgnoresTime World.store := fun _ _ _ => rfl
  have kept := keeps_contact ignores w.storeMode
    (fun messages => RunError.store (.backend (RunError.chain messages))) w
  rw [run_onStore] at ok
  rw [contactStore] at ok
  split at ok
  next after contacted =>
    rw [contacted] at kept
    exact ⟨after.now, kept ▸ eq_ok_of_mapError ok⟩
  next => cases ok

private theorem exists_run_of_request {r : StoreRequest α}
    (ok : (request fun _ => r).run w = (.ok a, left)) :
    ∃ t, (w.store.run t r.toAction).1 = .ok a := by
  obtain ⟨v, same, ok⟩ := exists_effect_of_call ok
  rw [← same]
  cases r with
  | ok action =>
    change ((getThe World >>= fun _ => onStore action).run v).1 = _ at ok
    rw [run_bind, run_getThe] at ok
    exact exists_run_of_onStore ok
  | error e =>
    change ((getThe World >>= fun _ => (throw (RunError.store e) : Host α)).run v).1 = _ at ok
    rw [run_bind, run_getThe] at ok
    cases ok

private theorem exists_run_of_storeSearch {h : StoreHandle} {pattern : String} {inv : Invocation}
    {v : Value}
    (ok : ((Call.storeSearch h pattern).perform inv).run w = (.ok v, left)) :
    ∃ pairs t, (w.store.run t (h.search pattern).toAction).1 = .ok pairs ∧
      v = .map (Dict.ofPairs pairs) := by
  rw [Call.perform, run_bind] at ok
  split at ok
  next pairs after requested =>
    obtain ⟨t, ran⟩ := exists_run_of_request requested
    cases ok
    exact ⟨pairs, t, ran, rfl⟩
  next => cases ok

end Host

namespace Store

variable {s start : Store} {calls : List (Instant × StoreCall)} {guild : String} {space : Keyspace}
  {now : Instant} {pattern : String}

/-- What a handle gives for a search: the keys found, with the values that it gives for each of them. -/
private theorem pairs_of_search (loaded : s.load guild = .ok space) (formed : space.WellFormed)
    {h : StoreHandle} (own : h.guild = guild) {pairs : List (String × Value)}
    (made : StoreHandle.valuesOf (space.search pattern now) = .ok pairs) :
    pairs.map Prod.fst = (space.search pattern now).map Entry.key ∧
      ∀ p ∈ pairs, (s.run now (h.get p.1).toAction).1 = .ok p.2 := by
  obtain ⟨keys, origins⟩ := StoreHandle.pairs_of_valuesOf made
  refine ⟨keys, fun p member => ?_⟩
  obtain ⟨entry, there, same, reads⟩ := origins p member
  obtain ⟨found, -⟩ := formed.mem_search.2 ⟨there, rfl⟩
  rw [run_get_handle loaded now own, same, found]
  exact reads

private theorem ordered_of_pairs (formed : space.WellFormed) {pairs : List (String × Value)}
    (keys : pairs.map Prod.fst = (space.search pattern now).map Entry.key) : Dict.Ordered pairs := by
  rw [Dict.ordered_iff_keys, Dict.keys, keys, List.pairwise_map]
  exact formed.search_pairwise

/-- In a store in files, or in one in memory that was empty, after any calls: unless the guild cannot be
read, a search gives exactly what look-ups find under the keys that match, once each and in the order of
the bytes of the keys. The pattern `%` finds as many entries as there are. A handle fails where one of
the entries has a text that cannot be decoded, and otherwise gives the keys with the values that it gives
for each of them. What a script is given is a map with one entry for each. -/
theorem search_exact (begins : start = memory {} ∨ ∃ f, start = files f)
    (valid : ∀ event ∈ calls, event.2.Valid event.1) (same : start.afterCalls calls = s)
    (guild pattern : String) :
    (∀ now,
      (∃ e, s.run now (search guild pattern) = (.error e, s) ∧
        s.run now (count guild) = (.error e, s) ∧
        ∀ key, s.run now (get guild key) = (.error e, s)) ∨
      ∃ found, s.run now (search guild pattern) = (.ok found, s) ∧
        (∀ key entry, (s.run now (get guild key)).1 = .ok (some entry) ∧
            Pattern.Splits pattern.toList key.toList ↔ entry ∈ found ∧ entry.key = key) ∧
        (found.map fun entry => Text.bytes entry.key).Pairwise (· < ·) ∧
        (pattern = "%" → s.run now (count guild) = (.ok found.length, s)) ∧
        ∀ h : StoreHandle, h.guild = guild →
          ((∃ e, (s.run now (h.search pattern).toAction).1 = .error e) ↔
            ∃ entry ∈ found, ∃ cause, Value.ofJsonText entry.value = .error cause) ∧
          ∀ pairs, (s.run now (h.search pattern).toAction).1 = .ok pairs →
            pairs.map Prod.fst = found.map Entry.key ∧
              ∀ p ∈ pairs, (s.run now (h.get p.1).toAction).1 = .ok p.2) ∧
    ∀ (h : StoreHandle) (inv : Invocation) (w left : World) (v : Value), h.guild = guild →
      w.store = s → ((Call.storeSearch h pattern).perform inv).run w = (.ok v, left) →
      ∃ now found pairs, (s.run now (search guild pattern)).1 = .ok found ∧ v = .map pairs ∧
        pairs.map Prod.fst = found.map Entry.key ∧
        ∀ p ∈ pairs, (s.run now (h.get p.1).toAction).1 = .ok p.2 := by
  subst same
  constructor
  · intro now
    cases loaded : (start.afterCalls calls).load guild with
    | error e =>
      exact .inl ⟨e, run_look_of_error loaded now _, run_look_of_error loaded now _,
        fun key => run_look_of_error loaded now _⟩
    | ok space =>
      have formed := wellFormed_of_load_afterCalls begins valid loaded
      refine .inr ⟨space.search pattern now, run_look loaded now _, fun key entry => ?_, ?_, ?_,
        fun h own => ⟨?_, fun pairs made => ?_⟩⟩
      · rw [get, run_look loaded, Except.ok.injEq]
        exact formed.mem_search
      · rw [List.pairwise_map]
        exact formed.search_pairwise.imp Text.bytes_lt
      · rintro rfl
        rw [count, run_look loaded, Keyspace.length_search_percent]
      · rw [run_search_handle loaded now own, StoreHandle.valuesOf_eq_error_iff]
        simp only [StoreHandle.valueOf_eq_error_iff]
      · rw [run_search_handle loaded now own] at made
        exact pairs_of_search loaded formed own made
  · rintro h inv w left v own stands ok
    obtain ⟨pairs, now, ran, rfl⟩ := Host.exists_run_of_storeSearch ok
    rw [stands] at ran
    cases loaded : (start.afterCalls calls).load guild with
    | error e =>
      subst own
      have failed : (start.afterCalls calls).run now (Store.search h.guild pattern >>= fun found =>
          liftM (StoreHandle.valuesOf found)) = (.error e, start.afterCalls calls) := by
        rw [run_bind, Store.search, run_look_of_error loaded]
      cases (congrArg Prod.fst failed).symm.trans ran
    | ok space =>
      have formed := wellFormed_of_load_afterCalls begins valid loaded
      rw [run_search_handle loaded now own] at ran
      obtain ⟨keys, values⟩ := pairs_of_search loaded formed own ran
      refine ⟨now, space.search pattern now, pairs, ?_, ?_, keys, values⟩
      · rw [search, run_look loaded]
      · rw [Dict.ofPairs_of_ordered (ordered_of_pairs formed keys)]

end Store

/-- An entry that a hand has left for ten seconds, in a text of its own. -/
def scrawledEntry : Entry :=
  { guild := "1", key := "score:c", value := "garbage", expiresAt := some ⟨10, 0⟩
    createdAt := ⟨0, 0⟩, updatedAt := ⟨0, 0⟩ }

def scoreCalls : List (Instant × StoreCall) :=
  let h : StoreHandle := { guild := "1", limits := .withMaxKeys 9 }
  [(⟨0, 0⟩, .request h (.set "score:b" (.int 5) none)), (⟨0, 0⟩, .operation (.set scrawledEntry 9)),
    (⟨1, 0⟩, .request h (.set "name" (.str "x") none)), (⟨2, 0⟩, .request h (.increase "score:a" 3))]

private theorem valid_of_mem_scoreCalls : ∀ event ∈ scoreCalls, event.2.Valid event.1 := by
  simp only [scoreCalls, List.forall_mem_cons]
  refine ⟨⟨by decide, nofun⟩, ⟨by decide, fun o same => ?_⟩, ⟨by decide, nofun⟩,
    ⟨by decide, nofun⟩, nofun⟩
  cases same
  refine ⟨fun t expires => ?_, by decide, by decide⟩
  cases expires
  decide

theorem scoreCalls_search :
    let s := (Store.memory {}).afterCalls scoreCalls
    let h : StoreHandle := { guild := "1", limits := {} }
    (∃ e, (s.run ⟨9, 0⟩ (h.search "score:%").toAction).1 = .error e) ∧
      ∃ found, (s.run ⟨10, 0⟩ (Store.search "1" "%")).1 = .ok found ∧ found.length = 3 ∧
        (found.map fun entry => Text.bytes entry.key).Pairwise (· < ·) := by
  intro s h
  have begins : Store.memory {} = .memory {} ∨ ∃ f, Store.memory {} = .files f := .inl rfl
  have exact := Store.search_exact begins valid_of_mem_scoreCalls rfl "1"
  constructor
  · have looked : (s.run ⟨9, 0⟩ (Store.get "1" "score:c")).1 = .ok (some scrawledEntry) := by
      decide +kernel
    obtain ⟨e, -, -, failed⟩ | ⟨found, -, finds, -, -, handled⟩ := (exact "score:%").1 ⟨9, 0⟩
    · cases (congrArg Prod.fst (failed "score:c")).symm.trans looked
    · have splits := (Pattern.isMatch_iff "score:%" "score:c").1 (by cbv)
      obtain ⟨there, -⟩ := (finds "score:c" scrawledEntry).1 ⟨looked, splits⟩
      exact (handled h rfl).1.2 ⟨scrawledEntry, there, .json, rfl⟩
  · have counted : (s.run ⟨10, 0⟩ (Store.count "1")).1 = .ok 3 := by decide +kernel
    obtain ⟨e, -, failed, -⟩ | ⟨found, ran, -, ordered, all, -⟩ := (exact "%").1 ⟨10, 0⟩
    · cases (congrArg Prod.fst failed).symm.trans counted
    · have number := (congrArg Prod.fst (all rfl)).symm.trans counted
      exact ⟨found, congrArg Prod.fst ran, Except.ok.inj number, ordered⟩

end GuildSandbox

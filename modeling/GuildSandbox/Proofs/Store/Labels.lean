import GuildSandbox.Proofs.Store.Lookup
import GuildSandbox.Proofs.Store.Operations

set_option autoImplicit false
set_option relaxedAutoImplicit false

namespace GuildSandbox

open Time (Instant)

structure Keyspace.OwnedBy (guild : String) (space : Keyspace) : Prop where
  owned : ∀ p ∈ space, p.2.guild = guild
  keyed : ∀ p ∈ space, p.2.key = p.1

namespace Keyspace

variable {guild key : String} {space : Keyspace} {entry : Entry}

private theorem ownedBy_nil (guild : String) : OwnedBy guild [] := ⟨by simp, by simp⟩

private theorem OwnedBy.filter (own : OwnedBy guild space) (p : String × Entry → Bool) :
    OwnedBy guild (List.filter p space) :=
  ⟨fun q member => own.owned q (List.mem_filter.1 member).1,
    fun q member => own.keyed q (List.mem_filter.1 member).1⟩

private theorem OwnedBy.insert (own : OwnedBy guild space) (here : entry.guild = guild)
    (same : entry.key = key) : OwnedBy guild (Dict.insert key entry space) := by
  refine ⟨fun p member => ?_, fun p member => ?_⟩
  · rcases Dict.mem_insert member with rfl | member
    · exact here
    · exact own.owned p member
  · rcases Dict.mem_insert member with rfl | member
    · exact same
    · exact own.keyed p member

private theorem OwnedBy.find? (own : OwnedBy guild space)
    (found : Dict.find? key space = some entry) :
    entry.guild = guild ∧ entry.key = key := by
  have member := Dict.mem_of_find? found
  exact ⟨own.owned _ member, own.keyed _ member⟩

private theorem OwnedBy.updated (own : OwnedBy guild space) {maxKeys : Nat}
    {next : Option Entry → Except StoreError String} {now : Instant}
    (written : space.updated guild key maxKeys next now = .ok entry) :
    entry.guild = guild ∧ entry.key = key := by
  obtain ⟨old, value, found, -, rfl⟩ | ⟨value, -, -, -, rfl⟩ := updated_cases written
  · obtain ⟨here, same⟩ := own.find? found
    exact ⟨here, same⟩
  · exact ⟨rfl, rfl⟩

end Keyspace

def StoreReply.entries : StoreReply → List Entry
  | .written | .counted _ => []
  | .updated entry => [entry]
  | .found entry => entry.toList
  | .matched entries => entries

namespace StoreOperation

def key? : StoreOperation → Option String
  | .update _ key _ _ | .get _ key | .delete _ key => some key
  | .set _ _ | .count _ | .search _ _ => none

def AsksFor (o : StoreOperation) (entry : Entry) : Prop :=
  entry.guild = o.guild ∧ ∀ key ∈ o.key?, entry.key = key

variable {o : StoreOperation} {now : Instant} {space : Keyspace}

private theorem ownedBy_onKeyspace (own : space.OwnedBy o.guild) :
    (o.onKeyspace space now).2.OwnedBy o.guild := by
  have live : (space.purge now).OwnedBy o.guild := own.filter _
  cases o with
  | get guild key | count guild | search guild pattern => exact own
  | delete guild key => exact live.filter _
  | set entry maxKeys =>
    simp only [onKeyspace, Keyspace.set]
    split
    next old found => exact live.insert rfl rfl
    next absent =>
      split
      · exact live
      · exact live.insert rfl rfl
  | update guild key maxKeys next =>
    simp only [onKeyspace, Keyspace.update]
    split
    next entry written =>
      obtain ⟨here, same⟩ := live.updated written
      exact live.insert here same
    next => exact live

private theorem asksFor_of_onKeyspace (own : space.OwnedBy o.guild) {reply : StoreReply}
    (answered : (o.onKeyspace space now).1 = .ok reply) :
    ∀ entry ∈ reply.entries, o.AsksFor entry := by
  have live : (space.purge now).OwnedBy o.guild := own.filter _
  cases o with
  | set entry maxKeys =>
    obtain ⟨_, -, rfl⟩ := exists_ok_of_map answered
    simp [StoreReply.entries]
  | count guild =>
    cases answered
    simp [StoreReply.entries]
  | get guild key =>
    cases answered
    intro entry member
    have found := Option.mem_toList.1 member
    obtain ⟨here, same⟩ := own.find? (Option.filter_eq_some_iff.1 found).1
    exact ⟨here, by simpa [key?] using same⟩
  | delete guild key =>
    cases answered
    intro entry member
    obtain ⟨here, same⟩ := live.find? (Option.mem_toList.1 member)
    exact ⟨here, by simpa [key?] using same⟩
  | update guild key maxKeys next =>
    obtain ⟨entry, written, rfl⟩ := exists_ok_of_map answered
    obtain ⟨here, same⟩ := live.updated (Keyspace.updated_of_update written)
    simpa [StoreReply.entries, AsksFor, key?] using ⟨here, same⟩
  | search guild pattern =>
    cases answered
    intro entry member
    obtain ⟨p, there, rfl⟩ := List.mem_map.1 (List.mem_filter.1 member).1
    exact ⟨live.owned p there, by simp [key?]⟩

end StoreOperation

/-- An entry read back has the names it was written with, whatever becomes of its instants. -/
theorem Entry.names_of_ofJson? {e read : Entry} (back : ofJson? e.toJson = some read) :
    read.guild = e.guild ∧ read.key = e.key := by
  have fields : ∃ expiry, e.toJson.recordFields? fieldNames =
      some [some (.str e.guild), some (.str e.key), some (.str e.value), expiry,
        some (.str e.createdAt.toText), some (.str e.updatedAt.toText)] := by
    cases found : e.expiresAt with
    | none =>
      exact ⟨none, by simp [toJson, fieldNames, found, Json.recordFields?, Json.namedFields?,
        Json.always, Json.whenPresent]⟩
    | some t =>
      exact ⟨some (.str t.toText), by simp [toJson, fieldNames, found, Json.recordFields?,
        Json.namedFields?, Json.always, Json.whenPresent]⟩
  obtain ⟨expiry, fields⟩ := fields
  simp only [ofJson?, fields, Option.bind_eq_bind, Option.bind_some, Json.required, Json.toStr?,
    Option.pure_def, Option.bind_eq_some_iff] at back
  obtain ⟨_, -, _, -, _, -, made⟩ := back
  cases made
  exact ⟨rfl, rfl⟩

/-- A file to which the entries of a keyspace of a guild were written holds entries of the guild. -/
private theorem GuildFile.ownedBy_of_load {guild : String} {space read : Keyspace}
    (own : space.OwnedBy guild)
    (loaded : (GuildFile.text (textOfEntries space.entries)).load = .ok read) :
    read.OwnedBy guild := by
  refine ⟨fun p member => ?_, (wellFormed_of_load loaded).keyed⟩
  cases loaded
  obtain ⟨entry, there, rfl⟩ := List.mem_map.1 (Dict.mem_of_mem_ofPairs member)
  rw [entriesOfText, lines_textOfEntries, List.filterMap_map] at there
  obtain ⟨written, here, back⟩ := List.mem_filterMap.1 there
  obtain ⟨q, kept, rfl⟩ := List.mem_map.1 here
  rw [Function.comp_apply, entryOfLine?_render_eq] at back
  exact (Entry.names_of_ofJson? back).1.trans (own.owned q kept)

namespace Store

def Labelled (s : Store) : Prop :=
  ∀ guild space, s.load guild = .ok space → space.OwnedBy guild

theorem labelled_memory : (memory {}).Labelled := by
  intro guild space loaded
  cases loaded
  exact Keyspace.ownedBy_nil guild

theorem labelled_files : (files {}).Labelled := by
  intro guild space loaded
  obtain ⟨-, reads⟩ := load_files_eq_ok.1 loaded
  cases reads
  exact Keyspace.ownedBy_nil guild

variable {s kept : Store} {guild : String} {left : Keyspace}

private theorem Labelled.keep (labelled : s.Labelled) (own : left.OwnedBy guild) {changed : Bool}
    (keeps : s.keep guild left changed = .ok kept) : kept.Labelled := by
  intro other space loaded
  by_cases here : other = guild
  · subst here
    match s with
    | .memory m =>
      cases keeps
      simp only [load, MemoryStore.keyspace_withKeyspace_self, Except.ok.injEq] at loaded
      exact loaded ▸ own
    | .files f =>
      obtain ⟨-, rfl⟩ | ⟨-, -, rfl⟩ := keep_files_cases keeps
      · exact labelled other space loaded
      · obtain ⟨-, reads⟩ := load_files_eq_ok.1 loaded
        rw [LineFileStore.file_withFile_self] at reads
        exact GuildFile.ownedBy_of_load own reads
  · rw [load_of_keep_of_ne keeps here] at loaded
    exact labelled other space loaded

theorem Labelled.run (labelled : s.Labelled) (o : StoreOperation) (now : Instant) :
    (s.run now o.perform).2.Labelled := by
  obtain ⟨e, failed⟩ | ⟨space, kept, loaded, ran, leaves⟩ := o.run_cases now s
  · rwa [failed]
  · rw [ran]
    obtain rfl | ⟨changed, keeps⟩ := leaves
    · exact labelled
    · exact labelled.keep (StoreOperation.ownedBy_onKeyspace (labelled _ _ loaded)) keeps

/-- An operation on a store whose entries bear their names gives only entries it asks for. -/
theorem Labelled.asksFor (labelled : s.Labelled) {o : StoreOperation} {now : Instant}
    {reply : StoreReply} (answered : (s.run now o.perform).1 = .ok reply) :
    ∀ entry ∈ reply.entries, o.AsksFor entry := by
  obtain ⟨e, failed⟩ | ⟨space, kept, loaded, ran, -⟩ := o.run_cases now s
  · rw [failed] at answered
    cases answered
  · rw [ran] at answered
    exact StoreOperation.asksFor_of_onKeyspace (labelled _ _ loaded) answered

end Store

end GuildSandbox

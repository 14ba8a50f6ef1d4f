import GuildSandbox.Proofs.Store.Actions
import GuildSandbox.Proofs.Store.Keeping
import GuildSandbox.Proofs.Store.Keyspace
import GuildSandbox.Proofs.Store.Opening

/-!
Stores in memory and stores in files answer alike.

Both start empty and are asked the same things at the same instants, and the store in files may be
closed and opened again in between. The keyspaces that they hold differ, since files keep expired
entries until the next write; their live parts agree, and answers depend on nothing else.
-/

set_option autoImplicit false
set_option relaxedAutoImplicit false

namespace GuildSandbox

open Time (Instant)

inductive StoreOperation where
  | set (entry : Entry) (maxKeys : Nat)
  | update (guild key : String) (maxKeys : Nat) (next : Option Entry → Except StoreError String)
  | get (guild key : String)
  | delete (guild key : String)
  | count (guild : String)
  | search (guild pattern : String)

inductive StoreReply where
  | written
  | updated (entry : Entry)
  | found (entry : Option Entry)
  | counted (n : Nat)
  | matched (entries : List Entry)
  deriving DecidableEq, Repr

namespace StoreOperation

def guild : StoreOperation → String
  | .set entry _ => entry.guild
  | .update guild _ _ _ | .get guild _ | .delete guild _ | .count guild | .search guild _ => guild

def perform : StoreOperation → StoreAction StoreReply
  | .set entry maxKeys => (fun _ => .written) <$> Store.set entry maxKeys
  | .update guild key maxKeys next => .updated <$> Store.update guild key maxKeys next
  | .get guild key => .found <$> Store.get guild key
  | .delete guild key => .found <$> Store.delete guild key
  | .count guild => .counted <$> Store.count guild
  | .search guild pattern => .matched <$> Store.search guild pattern

/-- The guild can have a directory, and the instants of an entry to be written exist. -/
def Accepted (o : StoreOperation) : Prop :=
  LineFileStore.isGuildName o.guild = true ∧ ∀ entry maxKeys, o = .set entry maxKeys → entry.Valid

end StoreOperation

inductive StoreEvent where
  /-- The store is asked something at an instant. -/
  | operation (now : Instant) (o : StoreOperation)
  /-- A store in files is closed, and opened again on this tree. -/
  | reopen (tree : FileTree)

namespace Store

/-- The store after it was opened again. A store in memory is not closed. -/
def reopened (tree : FileTree) : Store → Store
  | .memory m => .memory m
  | .files _ => .files (.ofTree tree)

def replies (s : Store) : List StoreEvent → List (Except StoreError StoreReply)
  | [] => []
  | .operation now o :: rest => (s.run now o.perform).1 :: (s.run now o.perform).2.replies rest
  | .reopen tree :: rest => (s.reopened tree).replies rest

/-- The files of the guilds stand in the tree as the store wrote them. -/
def StandsIn (tree : FileTree) : Store → Prop
  | .memory _ => True
  | .files f => ∀ guild, LineFileStore.isGuildName guild = true →
    LineFileStore.fileIn tree guild = f.file guild

/-- Whenever the store is opened again, it is opened on its own files. -/
def KeepsFiles (s : Store) : List StoreEvent → Prop
  | [] => True
  | .operation now o :: rest => (s.run now o.perform).2.KeepsFiles rest
  | .reopen tree :: rest => s.StandsIn tree ∧ (s.reopened tree).KeepsFiles rest

end Store

namespace StoreEvent

def instant? : StoreEvent → Option Instant
  | .operation now _ => some now
  | .reopen _ => none

def instants (history : List StoreEvent) : List Instant := history.filterMap instant?

private theorem instants_operation (now : Instant) (o : StoreOperation) (rest : List StoreEvent) :
    instants (.operation now o :: rest) = now :: instants rest := rfl

private theorem instants_reopen (tree : FileTree) (rest : List StoreEvent) :
    instants (.reopen tree :: rest) = instants rest := rfl

def Accepted : StoreEvent → Prop
  | .operation now o => now.Valid ∧ o.Accepted
  | .reopen _ => True

end StoreEvent

def GuildFile.Holds (file : GuildFile) (space : Keyspace) : Prop :=
  file.load = .ok space ∧ file ≠ .blocked

theorem GuildFile.save_of_holds {file : GuildFile} {space : Keyspace} (holds : file.Holds space)
    (next : Keyspace) : file.save next = .ok (.text (textOfEntries next.entries)) := by
  obtain ⟨loaded, open_dir⟩ := holds
  cases file with
  | missing => rfl
  | text content => rfl
  | unreadable cause => cases loaded
  | blocked => exact absurd rfl open_dir

theorem GuildFile.holds_textOfEntries {space : Keyspace} (h : space.WellFormed) :
    (GuildFile.text (textOfEntries space.entries)).Holds space := by
  refine ⟨?_, by simp⟩
  have valid : ∀ e ∈ space.entries, e.Valid := by
    intro e member
    obtain ⟨p, here, rfl⟩ := List.mem_map.1 member
    exact h.valid p here
  rw [load, entriesOfText_textOfEntries valid, Keyspace.ofEntries_entries h]

structure SameLive (now : Instant) (space other : Keyspace) : Prop where
  left : space.WellFormed
  right : other.WellFormed
  live : space.purge now = other.purge now

/-- The stores have the same live entries at an instant, and the files can be read and written. -/
def Agree (now : Instant) (m : MemoryStore) (f : LineFileStore) : Prop :=
  ∀ guild, LineFileStore.isGuildName guild = true →
    ∃ disk, (f.file guild).Holds disk ∧ SameLive now (m.keyspace guild) disk

private theorem agree_empty (now : Instant) : Agree now {} {} := fun _ _ =>
  ⟨[], ⟨rfl, by simp [LineFileStore.file, Dict.find?]⟩,
    Keyspace.wellFormed_nil, Keyspace.wellFormed_nil, rfl⟩

private theorem Agree.later {now later : Instant} {m : MemoryStore} {f : LineFileStore}
    (agree : Agree now m f) (order : now ≤ later) : Agree later m f := by
  intro guild accepted
  obtain ⟨disk, holds, same⟩ := agree guild accepted
  refine ⟨disk, holds, same.left, same.right, ?_⟩
  rw [← Keyspace.purge_purge order, same.live, Keyspace.purge_purge order]

private theorem Agree.withKeyspace {now : Instant} {m : MemoryStore} {f : LineFileStore}
    (agree : Agree now m f) {guild : String} {file : GuildFile} {space disk : Keyspace}
    (holds : file.Holds disk) (same : SameLive now space disk) :
    Agree now (m.withKeyspace guild space) (f.withFile guild file) := by
  intro other accepted
  by_cases here : other = guild
  · subst here
    refine ⟨disk, ?_, ?_⟩
    · rwa [LineFileStore.file_withFile_self]
    · rwa [MemoryStore.keyspace_withKeyspace_self]
  · obtain ⟨kept, holdsKept, sameKept⟩ := agree other accepted
    refine ⟨kept, ?_, ?_⟩
    · rwa [LineFileStore.file_withFile_of_ne here]
    · rwa [MemoryStore.keyspace_withKeyspace_of_ne here]

private theorem Agree.withMemory {now : Instant} {m : MemoryStore} {f : LineFileStore}
    (agree : Agree now m f) {guild : String} {space disk : Keyspace}
    (holds : (f.file guild).Holds disk) (same : SameLive now space disk) :
    Agree now (m.withKeyspace guild space) f := by
  intro other accepted
  by_cases here : other = guild
  · subst here
    refine ⟨disk, holds, ?_⟩
    rwa [MemoryStore.keyspace_withKeyspace_self]
  · obtain ⟨kept, holdsKept, sameKept⟩ := agree other accepted
    refine ⟨kept, holdsKept, ?_⟩
    rwa [MemoryStore.keyspace_withKeyspace_of_ne here]

/-- An action gets the same answer from stores that agree, and they still agree after it. -/
def AnsweredAlike {α : Type} (now : Instant) (action : StoreAction α) : Prop :=
  ∀ m f, Agree now m f → ∃ reply m' f', Store.run (.memory m) now action = (reply, .memory m') ∧
    Store.run (.files f) now action = (reply, .files f') ∧ Agree now m' f'

namespace AnsweredAlike

variable {α β : Type} {now : Instant} {guild : String}

private theorem map {action : StoreAction α} (alike : AnsweredAlike now action) (g : α → β) :
    AnsweredAlike now (g <$> action) := by
  intro m f agree
  obtain ⟨reply, m', f', memory, files, after⟩ := alike m f agree
  refine ⟨reply.map g, m', f', ?_, ?_, after⟩
  · rw [Store.run_map, memory]
  · rw [Store.run_map, files]

private theorem look (accepted : LineFileStore.isGuildName guild = true)
    {ask : Keyspace → Instant → α}
    (respects : ∀ space other, SameLive now space other → ask space now = ask other now) :
    AnsweredAlike now (Store.look guild ask) := by
  intro m f agree
  obtain ⟨disk, holds, same⟩ := agree guild accepted
  have loaded : (Store.files f).load guild = .ok disk :=
    Store.load_files_eq_ok.2 ⟨accepted, holds.1⟩
  refine ⟨.ok (ask disk now), m, f, ?_, Store.run_look loaded now ask, agree⟩
  rw [Store.run_look rfl, respects _ _ same]

private theorem change (accepted : LineFileStore.isGuildName guild = true) {counts : α → Bool}
    {operation : Keyspace → Instant → Except StoreError α × Keyspace}
    (respects : ∀ space other, SameLive now space other → operation space now = operation other now)
    (wellFormed : ∀ space : Keyspace, space.WellFormed → (operation space now).2.WellFormed)
    (unchanged : ∀ space : Keyspace, space.WellFormed →
      Store.isChange counts (operation space now).1 = false →
      (operation space now).2.purge now = space.purge now) :
    AnsweredAlike now (Store.change guild counts operation) := by
  intro m f agree
  obtain ⟨disk, holds, same⟩ := agree guild accepted
  have loaded : (Store.files f).load guild = .ok disk :=
    Store.load_files_eq_ok.2 ⟨accepted, holds.1⟩
  obtain ⟨⟨result, left⟩, done⟩ : ∃ outcome, outcome = operation disk now := ⟨_, rfl⟩
  have doneInMemory : operation (m.keyspace guild) now = (result, left) := by
    rw [respects _ _ same, done]
  have leftFormed : left.WellFormed := by
    have formed := wellFormed disk same.right
    rwa [← done] at formed
  have memory : Store.run (.memory m) now (Store.change guild counts operation) =
      (result, .memory (m.withKeyspace guild left)) :=
    Store.run_change rfl doneInMemory rfl
  cases changed : Store.isChange counts result with
  | true =>
    refine ⟨result, _, _, memory, Store.run_change loaded done.symm ?_,
      agree.withKeyspace (GuildFile.holds_textOfEntries leftFormed) ⟨leftFormed, leftFormed, rfl⟩⟩
    rw [changed, Store.keep_files_of_save (GuildFile.save_of_holds holds left)]
  | false =>
    have quiet : left.purge now = disk.purge now := by
      have kept := unchanged disk same.right
      rw [← done] at kept
      exact kept changed
    refine ⟨result, _, f, memory, Store.run_change loaded done.symm ?_,
      agree.withMemory holds ⟨leftFormed, same.right, quiet⟩⟩
    rw [changed]
    rfl

end AnsweredAlike

private theorem StoreOperation.answeredAlike {now : Instant} (instant : now.Valid)
    {o : StoreOperation}
    (accepted : o.Accepted) : AnsweredAlike now o.perform := by
  obtain ⟨guild, entries⟩ := accepted
  cases o with
  | get g key =>
    refine (AnsweredAlike.look guild fun space other same => ?_).map _
    rw [← Keyspace.find?_purge same.left, same.live, Keyspace.find?_purge same.right]
  | count g =>
    refine (AnsweredAlike.look guild fun space other same => ?_).map _
    rw [Keyspace.count, Keyspace.count, same.live]
  | search g pattern =>
    refine (AnsweredAlike.look guild fun space other same => ?_).map _
    rw [Keyspace.search, Keyspace.search, same.live]
  | set entry maxKeys =>
    have valid := entries entry maxKeys rfl
    refine (AnsweredAlike.change guild (fun space other same => ?_)
      (fun space formed => formed.set valid maxKeys now) fun space formed quiet => ?_).map _
    · simp only [Keyspace.set, same.live]
    · obtain ⟨e, failed⟩ := Store.exists_error_of_isChange quiet
      rw [Keyspace.set_of_error failed, Keyspace.purge_self]
  | update g key maxKeys next =>
    refine (AnsweredAlike.change guild (fun space other same => ?_)
      (fun space formed => formed.update g key maxKeys next instant)
      fun space formed quiet => ?_).map _
    · simp only [Keyspace.update, same.live]
    · obtain ⟨e, failed⟩ := Store.exists_error_of_isChange quiet
      rw [Keyspace.update_of_error failed, Keyspace.purge_self]
  | delete g key =>
    refine (AnsweredAlike.change guild (fun space other same => ?_)
      (fun space formed => formed.delete key now) fun space formed quiet => ?_).map _
    · simp only [Keyspace.delete, same.live]
    · have absent : (space.delete key now).1 = none :=
        Option.isNone_iff_eq_none.1 (by simpa [Store.isChange] using quiet)
      have left := Keyspace.delete_of_absent formed absent
      simp only [left, Keyspace.purge_self]

private theorem Agree.reopened {now : Instant} {m : MemoryStore} {f : LineFileStore}
    (agree : Agree now m f) {tree : FileTree} (stands : (Store.files f).StandsIn tree) :
    Agree now m (.ofTree tree) := by
  intro guild accepted
  obtain ⟨disk, holds, same⟩ := agree guild accepted
  refine ⟨disk, ?_, same⟩
  rw [LineFileStore.file_ofTree tree accepted, stands guild accepted]
  exact holds

private theorem replies_eq_of_agree {history : List StoreEvent}
    (accepted : ∀ event ∈ history, event.Accepted)
    (order : (StoreEvent.instants history).Pairwise (· ≤ ·)) {m : MemoryStore}
    {f : LineFileStore} (agree : ∀ now ∈ StoreEvent.instants history, Agree now m f)
    (kept : (Store.files f).KeepsFiles history) :
    (Store.memory m).replies history = (Store.files f).replies history := by
  induction history generalizing m f with
  | nil => rfl
  | cons event rest ih =>
    have acceptedRest : ∀ event ∈ rest, event.Accepted := fun event member =>
      accepted event (List.mem_cons_of_mem _ member)
    cases event with
    | operation now o =>
      rw [StoreEvent.instants_operation] at order agree
      obtain ⟨first, orderRest⟩ := List.pairwise_cons.1 order
      obtain ⟨instant, acceptedHere⟩ := accepted (.operation now o) List.mem_cons_self
      obtain ⟨reply, m', f', memory, files, after⟩ :=
        StoreOperation.answeredAlike instant acceptedHere m f (agree now List.mem_cons_self)
      rw [Store.KeepsFiles, files] at kept
      rw [Store.replies, Store.replies, memory, files]
      have agreeRest : ∀ later ∈ StoreEvent.instants rest, Agree later m' f' :=
        fun later member => after.later (first later member)
      exact congrArg (reply :: ·) (ih acceptedRest orderRest agreeRest kept)
    | reopen tree =>
      rw [StoreEvent.instants_reopen] at order agree
      obtain ⟨stands, keptRest⟩ := kept
      have agreeRest : ∀ later ∈ StoreEvent.instants rest, Agree later m (.ofTree tree) :=
        fun later member => (agree later member).reopened stands
      exact ih acceptedRest order agreeRest keptRest

/-- Two stores that start empty, one in memory and one in files, give the same answers to every
history of operations in the order of time, however often the files are closed and opened again. -/
theorem replies_memory_eq_files {history : List StoreEvent}
    (accepted : ∀ event ∈ history, event.Accepted)
    (order : (StoreEvent.instants history).Pairwise (· ≤ ·))
    (kept : (Store.files {}).KeepsFiles history) :
    (Store.memory {}).replies history = (Store.files {}).replies history :=
  replies_eq_of_agree accepted order (fun now _ => agree_empty now) kept

/-- An entry of a minute, with line feeds and quotation marks in its key and value. -/
def shortLived : Entry where
  guild := "42"
  key := "line\nfeed"
  value := "\"é\"\r\n"
  expiresAt := some ⟨1800000060, 0⟩
  createdAt := ⟨1800000000, 500000000⟩
  updatedAt := ⟨1800000000, 500000000⟩

def shortLivedTree : FileTree :=
  [("42", .directory), ("42/kv.jsonl", .text (GuildFile.textOfEntries [shortLived]))]

/-- The entry is written and read after a reopening; it makes room for another one by expiring. -/
def shortLivedHistory : List StoreEvent :=
  [.operation ⟨1800000000, 500000000⟩ (.set shortLived 1), .reopen shortLivedTree,
    .operation ⟨1800000059, 0⟩ (.get "42" "line\nfeed"),
    .operation ⟨1800000059, 0⟩ (.update "42" "other" 1 fun _ => .ok "1"),
    .operation ⟨1800000060, 0⟩ (.delete "42" "line\nfeed"),
    .operation ⟨1800000060, 0⟩ (.update "42" "other" 1 fun _ => .ok "1"),
    .operation ⟨1800000061, 0⟩ (.search "42" "%")]

theorem shortLived_replies :
    (∀ event ∈ shortLivedHistory, event.Accepted) ∧
      (StoreEvent.instants shortLivedHistory).Pairwise (· ≤ ·) ∧
      (Store.files {}).KeepsFiles shortLivedHistory ∧
      (Store.memory {}).replies shortLivedHistory = (Store.files {}).replies shortLivedHistory := by
  have accepted : ∀ event ∈ shortLivedHistory, event.Accepted := by
    have valid : shortLived.Valid := ⟨by decide +kernel, by decide +kernel, by decide +kernel⟩
    have name : LineFileStore.isGuildName "42" = true := by decide
    simp only [shortLivedHistory, List.forall_mem_cons, StoreEvent.Accepted,
      StoreOperation.Accepted, StoreOperation.guild]
    refine ⟨⟨by decide +kernel, name, ?_⟩, trivial, ⟨by decide +kernel, name, ?_⟩,
      ⟨by decide +kernel, name, ?_⟩, ⟨by decide +kernel, name, ?_⟩, ⟨by decide +kernel, name, ?_⟩,
      ⟨by decide +kernel, name, ?_⟩, by simp⟩
    · rintro entry maxKeys ⟨⟩
      exact valid
    all_goals rintro entry maxKeys ⟨⟩
  have order : (StoreEvent.instants shortLivedHistory).Pairwise (· ≤ ·) := by decide
  have kept : (Store.files {}).KeepsFiles shortLivedHistory := by
    have written : ((Store.files {}).run ⟨1800000000, 500000000⟩
        (StoreOperation.set shortLived 1).perform).2 =
        .files { files := [("42", .text (GuildFile.textOfEntries [shortLived]))] } := by
      decide +kernel
    have here : LineFileStore.fileIn shortLivedTree "42" =
        .text (GuildFile.textOfEntries [shortLived]) := by decide +kernel
    refine ⟨?_, trivial⟩
    rw [written]
    intro guild accepted
    by_cases same : guild = "42"
    · subst same
      exact here
    · have absent : guild ∉ Dict.keys shortLivedTree := by
        have noPath : guild ≠ "42/kv.jsonl" := by
          rintro rfl
          exact absurd accepted (by decide)
        simp [shortLivedTree, Dict.keys, same, noPath]
      rw [LineFileStore.fileIn_of_notMem accepted absent]
      simp [LineFileStore.file, Dict.find?, Ne.symm same]
  exact ⟨accepted, order, kept, replies_memory_eq_files accepted order kept⟩

end GuildSandbox

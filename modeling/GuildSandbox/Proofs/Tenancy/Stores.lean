import GuildSandbox.Proofs.Store.Labels
import GuildSandbox.Proofs.Store.Places
import GuildSandbox.Proofs.Tenancy.Agreement

/-!
Guilds share a store and nothing in it.

What a guild is answered depends only on its own operations: two stores that agree on the guild
still agree on it after either of them served another guild, so those operations can be left out.
The entries it is given are its own, and its file is nobody else's.
-/

set_option autoImplicit false
set_option relaxedAutoImplicit false

namespace GuildSandbox

open Time (Instant)

namespace LineFileStore

/-- The id is empty, or has a character that is no ASCII letter or digit, underscore or hyphen. -/
def Refuses (guild : String) : Prop :=
  guild = "" ∨ ∃ c ∈ guild.toList, ¬ (('A' ≤ c ∧ c ≤ 'Z') ∨ ('a' ≤ c ∧ c ≤ 'z') ∨
    ('0' ≤ c ∧ c ≤ '9') ∨ c = '_' ∨ c = '-')

private theorem refuses_iff (guild : String) : Refuses guild ↔ isGuildName guild = false := by
  have letter (c : Char) : (Text.isAlphanumeric c || c = '-' || c = '_') = true ↔
      ('A' ≤ c ∧ c ≤ 'Z') ∨ ('a' ≤ c ∧ c ≤ 'z') ∨ ('0' ≤ c ∧ c ≤ '9') ∨ c = '_' ∨ c = '-' := by
    simp only [Text.isAlphanumeric, Text.isDigit, Bool.or_eq_true, Bool.and_eq_true,
      decide_eq_true_eq]
    tauto
  rw [← Bool.not_eq_true, isGuildName, Bool.and_eq_true, List.all_eq_true, not_and_or, Refuses]
  simp [letter]

end LineFileStore

namespace Store

def log (s : Store) :
    List (Instant × StoreOperation) → List (StoreOperation × Except StoreError StoreReply)
  | [] => []
  | (now, o) :: rest => (o, (s.run now o.perform).1) :: (s.run now o.perform).2.log rest

variable {guild : String} {s t : Store}

private theorem AgreeOn.of_keep {kept : Store} {other : String} {left : Keyspace} {changed : Bool}
    (agree : s.AgreeOn guild t) (different : guild ≠ other)
    (keeps : s.keep other left changed = .ok kept) : kept.AgreeOn guild t := by
  match s, t with
  | .memory m, .memory n =>
    cases keeps
    exact (MemoryStore.keyspace_withKeyspace_of_ne different m left).trans agree
  | .files f, .files g =>
    obtain ⟨-, rfl⟩ | ⟨-, -, rfl⟩ := keep_files_cases keeps
    · exact agree
    · rw [AgreeOn, LineFileStore.file_withFile_of_ne different]
      exact agree
  | .memory _, .files _ => cases agree
  | .files _, .memory _ => cases agree

private theorem confined_perform (o : StoreOperation) (now : Instant) :
    Confined o.guild now o.perform := by
  cases o with
  | set entry maxKeys => exact (confined_change _ _).map _
  | update guild key maxKeys next => exact (confined_change _ _).map _
  | delete guild key => exact (confined_change _ _).map _
  | get guild key => exact (confined_look _).map _
  | count guild => exact (confined_look _).map _
  | search guild pattern => exact (confined_look _).map _

private theorem AgreeOn.run_of_ne (agree : s.AgreeOn guild t) {o : StoreOperation}
    (different : guild ≠ o.guild) (now : Instant) :
    (s.run now o.perform).2.AgreeOn guild t := by
  obtain ⟨e, failed⟩ | ⟨space, kept, loaded, ran, rfl | ⟨changed, keeps⟩⟩ := o.run_cases now s
  · rwa [failed]
  · rwa [ran]
  · rw [ran]
    exact agree.of_keep different keeps

/-- What a guild is answered by a store is what it is answered alone by one that agrees on it. -/
theorem AgreeOn.log_filter (agree : s.AgreeOn guild t)
    (history : List (Instant × StoreOperation)) :
    ((s.log history).filter fun p => p.1.guild = guild) =
      t.log (history.filter fun p => p.2.guild = guild) := by
  induction history generalizing s t with
  | nil => rfl
  | cons event rest ih =>
    obtain ⟨now, o⟩ := event
    by_cases own : o.guild = guild
    · subst own
      obtain ⟨same, after⟩ := confined_perform o now s t agree
      simp only [log, List.filter_cons, decide_true, if_true, same, ih after]
    · simp only [log, List.filter_cons, own, decide_false, Bool.false_eq_true, if_false]
      exact ih (agree.run_of_ne (Ne.symm own) now)

theorem agreeOn_refl (guild : String) (s : Store) : s.AgreeOn guild s := by
  cases s with
  | memory m => exact rfl
  | files f => exact ⟨rfl, Iff.rfl⟩

private theorem Labelled.log (labelled : s.Labelled) (history : List (Instant × StoreOperation)) :
    ∀ p ∈ s.log history, ∀ reply, p.2 = .ok reply → ∀ entry ∈ reply.entries, p.1.AsksFor entry := by
  induction history generalizing s with
  | nil => simp [Store.log]
  | cons event rest ih =>
    obtain ⟨now, o⟩ := event
    intro p member reply answered
    obtain rfl | later := List.mem_cons.1 member
    · exact labelled.asksFor answered
    · exact ih (labelled.run o now) p later reply answered

end Store

/-- Operations of other guilds can be left out of a history without changing an answer to the
guild. The entries that a new store gives are of the guild and under the key that were asked for. A
store in files refuses what is no plain name and changes nothing then; the files of the names that
it takes are in different places, and writing one leaves the others as they are. -/
theorem guilds_stay_apart :
    (∀ (s : Store) (history : List (Instant × StoreOperation)) (guild : String),
      ((s.log history).filter fun p => p.1.guild = guild) =
        s.log (history.filter fun p => p.2.guild = guild)) ∧
    (∀ s : Store, s = .memory {} ∨ s = .files {} → ∀ (history : List (Instant × StoreOperation)),
      ∀ p ∈ s.log history, ∀ reply, p.2 = .ok reply →
        ∀ entry ∈ reply.entries, p.1.AsksFor entry) ∧
    (∀ (f : LineFileStore) (o : StoreOperation) (now : Instant), LineFileStore.Refuses o.guild →
      (Store.files f).run now o.perform = (.error (.invalidGuild o.guild), .files f)) ∧
    ∀ guild other : String, ¬ LineFileStore.Refuses guild → ¬ LineFileStore.Refuses other →
      other ≠ guild →
      (∀ (t : FileTree) (base : String) (place there : List String),
        t.resolve (LineFileStore.path base guild) = .ok place →
        t.resolve (LineFileStore.path base other) = .ok there →
        FileTree.key there ≠ FileTree.key place) ∧
      ∀ (t written : FileTree) (content : String),
        t.grow (LineFileStore.path "" guild) (.text content) = .ok written →
        LineFileStore.fileIn written guild = .text content ∧
          LineFileStore.fileIn written other = LineFileStore.fileIn t other := by
  refine ⟨fun s history guild => (Store.agreeOn_refl guild s).log_filter history, ?_, ?_, ?_⟩
  · rintro s (rfl | rfl) history
    · exact Store.labelled_memory.log history
    · exact Store.labelled_files.log history
  · intro f o now refuses
    exact o.run_of_refused now f ((LineFileStore.refuses_iff _).1 refuses)
  · intro guild other taken takenToo different
    have accepted : LineFileStore.isGuildName guild = true := by
      simpa [LineFileStore.refuses_iff] using taken
    have acceptedToo : LineFileStore.isGuildName other = true := by
      simpa [LineFileStore.refuses_iff] using takenToo
    refine ⟨fun t base place there => LineFileStore.key_ne_of_resolve accepted acceptedToo different,
      fun t written content grown => ?_⟩
    obtain ⟨reads, others⟩ := LineFileStore.fileIn_grow accepted grown
    exact ⟨reads, others other acceptedToo different⟩

def markOf (guild : String) : Entry where
  guild := guild
  key := "k"
  value := guild
  createdAt := ⟨1800000000, 0⟩
  updatedAt := ⟨1800000000, 0⟩

/-- Two guilds write and delete under one key, and a name that leads from one to the other is
tried. -/
def sharedHistory : List (Instant × StoreOperation) :=
  [(⟨1800000000, 0⟩, .set (markOf "1") 1), (⟨1800000000, 0⟩, .set (markOf "2") 1),
    (⟨1800000001, 0⟩, .delete "2/../1" "k"), (⟨1800000001, 0⟩, .delete "2" "k"),
    (⟨1800000002, 0⟩, .get "1" "k"), (⟨1800000002, 0⟩, .count "2")]

theorem sharedHistory_log :
    ((Store.files {}).log (sharedHistory.filter fun p => p.2.guild = "1")).map Prod.snd =
        [.ok .written, .ok (.found (some (markOf "1")))] ∧
      (((Store.files {}).log sharedHistory).filter fun p => p.1.guild = "1").map Prod.snd =
        [.ok .written, .ok (.found (some (markOf "1")))] ∧
      ((Store.files {}).run ⟨1800000001, 0⟩ (StoreOperation.delete "2/../1" "k").perform).1 =
        .error (.invalidGuild "2/../1") := by
  have alone :
      ((Store.files {}).log (sharedHistory.filter fun p => p.2.guild = "1")).map Prod.snd =
        [.ok .written, .ok (.found (some (markOf "1")))] := by decide +kernel
  have refused : LineFileStore.Refuses (StoreOperation.delete "2/../1" "k").guild :=
    .inr ⟨'/', by decide, by decide⟩
  refine ⟨alone, ?_, ?_⟩
  · rw [guilds_stay_apart.1, alone]
  · rw [guilds_stay_apart.2.2.1 {} (.delete "2/../1" "k") ⟨1800000001, 0⟩ refused]
    rfl

end GuildSandbox

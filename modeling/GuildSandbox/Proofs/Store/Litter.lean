import GuildSandbox.Proofs.Store.Search
import GuildSandbox.Proofs.Tenancy.Stores
import GuildSandbox.Proofs.Text.ByteLines

/-!
Lines that hold no entry.

A line that is blank, or from which no entry can be read, is skipped when a file is loaded, wherever it
stands. So a store answers a guild as if its file had no such lines, as long as they are text. A line
whose bytes are no text makes the whole file unreadable. A write leaves none of the lines: the file then
holds the entry written and the others that live, one line each.
-/

set_option autoImplicit false
set_option relaxedAutoImplicit false

namespace GuildSandbox

open Time (Instant)
open Text (lineFeed)

namespace GuildFile

private theorem entryOfLine?_append_return (line : List Char) :
    entryOfLine? (line ++ ['\r']) = entryOfLine? line := by
  have blank : Text.isBlank '\r' = true := by decide
  rw [entryOfLine?, Text.trim_append_blank blank]
  rfl

/-- It does not matter whether a carriage return stands before a line feed, nor whether the last line
ends in a line feed. -/
private theorem entriesOfText_eq (content : String) :
    entriesOfText content = (Text.splitOn '\n' content.toList).filterMap entryOfLine? := by
  have stripped : (entryOfLine? ∘ fun line =>
      if line.getLast? = some '\r' then line.dropLast else line) = entryOfLine? := by
    funext line
    rw [Function.comp_apply]
    split
    next ends =>
      obtain ⟨front, rfl⟩ := List.getLast?_eq_some_iff.1 ends
      rw [List.dropLast_concat, entryOfLine?_append_return]
    next => rfl
  unfold entriesOfText lines
  rw [List.filterMap_map, stripped]
  split
  next ends =>
    obtain ⟨front, pieces⟩ := List.getLast?_eq_some_iff.1 ends
    have nothing : entryOfLine? [] = none := rfl
    rw [pieces, List.dropLast_concat, List.filterMap_append, List.filterMap_cons_none nothing,
      List.filterMap_nil, List.append_nil]
  next => rfl

private theorem entriesOfText_append_lf (before after : String) :
    entriesOfText (before ++ "\n" ++ after) = entriesOfText before ++ entriesOfText after := by
  have shape : (before ++ "\n" ++ after).toList = before.toList ++ '\n' :: after.toList := by simp
  rw [entriesOfText_eq, shape, Text.splitOn_append_sep, List.filterMap_append, ← entriesOfText_eq,
    ← entriesOfText_eq]

private theorem bytes_textOfEntries (entries : List Entry) : Text.bytes (textOfEntries entries) =
    entries.flatMap fun e => Text.bytes e.toJson.compact ++ [lineFeed] := by
  have row (e : Entry) : (Json.render e.toJson ++ ['\n']).flatMap String.utf8EncodeChar =
      Text.bytes e.toJson.compact ++ [lineFeed] := by
    rw [List.flatMap_append, Json.compact, Text.bytes_eq, String.toList_ofList]
    rfl
  rw [Text.bytes_eq, toList_textOfEntries, List.flatMap_map, List.flatMap_assoc]
  simp only [row]

private theorem lineFeed_notMem_row (e : Entry) : lineFeed ∉ Text.bytes e.toJson.compact := by
  rw [Text.lineFeed_mem_bytes, Json.compact, String.toList_ofList]
  exact Json.lf_notMem_render e.toJson (numbers_toJson e _)

private theorem entriesOfText_of_line {line : String} (clean : '\n' ∉ line.toList)
    (nothing : entryOfLine? line.toList = none) : entriesOfText line = [] := by
  rw [entriesOfText_eq, Text.splitOn_of_notMem clean, List.filterMap_cons_none nothing,
    List.filterMap_nil]

def ofBytes (content : List UInt8) : GuildFile :=
  .ofRead (match Text.ofBytes? content with
    | some decoded => .ok decoded
    | none => .error .notText)

private theorem ofBytes_bytes (text : String) : ofBytes (Text.bytes text) = .text text := by
  rw [ofBytes, Text.ofBytes?_bytes]
  rfl

def entriesOfBytes? (content : List UInt8) : Option (List Entry) :=
  (Text.ofBytes? content).map entriesOfText

variable {content littered line : List UInt8}

private theorem load_ofBytes (content : List UInt8) : (ofBytes content).load =
    match entriesOfBytes? content with
    | some entries => .ok (Keyspace.ofEntries entries)
    | none => .error (.io .notText) := by
  unfold ofBytes entriesOfBytes?
  cases Text.ofBytes? content <;> rfl

private theorem ofBytes_ne_blocked (content : List UInt8) : ofBytes content ≠ .blocked := by
  unfold ofBytes
  cases Text.ofBytes? content <;> exact nofun

private theorem alike_ofBytes (same : entriesOfBytes? littered = entriesOfBytes? content) :
    (ofBytes littered).Alike (ofBytes content) := by
  refine ⟨by rw [load_ofBytes, load_ofBytes, same], ?_⟩
  exact iff_of_false (ofBytes_ne_blocked littered) (ofBytes_ne_blocked content)

private theorem entriesOfBytes?_append_lf (left right : List UInt8) :
    entriesOfBytes? (left ++ lineFeed :: right) = (entriesOfBytes? left).bind fun before =>
      (entriesOfBytes? right).map fun after => before ++ after := by
  rw [entriesOfBytes?, entriesOfBytes?, entriesOfBytes?, Text.ofBytes?_append_lf]
  cases Text.ofBytes? left with
  | none => rfl
  | some before =>
    cases Text.ofBytes? right with
    | none => rfl
    | some after => exact congrArg some (entriesOfText_append_lf before after)

private theorem entriesOfBytes?_nil : entriesOfBytes? [] = some [] :=
  congrArg (Option.map entriesOfText) (Text.ofBytes?_bytes "")

private theorem entriesOfBytes?_append_lineFeed (content : List UInt8) :
    entriesOfBytes? (content ++ [lineFeed]) = entriesOfBytes? content := by
  rw [entriesOfBytes?_append_lf, entriesOfBytes?_nil]
  cases entriesOfBytes? content <;> simp

def StartsLine (before : List UInt8) : Prop :=
  before = [] ∨ ∃ earlier, before = earlier ++ [lineFeed]

/-- The line is blank or has no record of an entry between its blanks, or it is no text at all. -/
def Unreadable (line : List UInt8) : Prop :=
  lineFeed ∉ line ∧ ∀ text, Text.ofBytes? line = some text →
    Text.trim text.toList = [] ∨
      Entry.ofText? (String.ofList (Text.trim text.toList)) = none

private theorem unreadable_bytes {text : String} (clean : '\n' ∉ text.toList)
    (unread : Text.trim text.toList = [] ∨
      Entry.ofText? (String.ofList (Text.trim text.toList)) = none) :
    Unreadable (Text.bytes text) := by
  refine ⟨mt Text.lineFeed_mem_bytes.1 clean, fun decoded read => ?_⟩
  obtain rfl := Text.bytes_injective (Text.ofBytes?_eq_some_iff.1 read)
  exact unread

/-- The content of a file with unreadable lines inserted at any positions. When its last line does not
end, it may be ended. -/
inductive Littered (content : List UInt8) : List UInt8 → Prop
  | same : Littered content content
  | line {before line after : List UInt8} (rest : Littered content (before ++ after))
      (starts : StartsLine before) (unreadable : Unreadable line) :
      Littered content (before ++ line ++ lineFeed :: after)
  | last {before line : List UInt8} (rest : Littered content before) (starts : StartsLine before)
      (unreadable : Unreadable line) : Littered content (before ++ line)
  | ended {unended : List UInt8} (rest : Littered content unended) :
      Littered content (unended ++ [lineFeed])

private theorem StartsLine.entriesOfBytes?_append {left : List UInt8} (starts : StartsLine left)
    (right : List UInt8) : entriesOfBytes? (left ++ right) =
      (entriesOfBytes? left).bind fun before =>
        (entriesOfBytes? right).map fun after => before ++ after := by
  obtain rfl | ⟨earlier, rfl⟩ := starts
  · rw [entriesOfBytes?_nil, List.nil_append]
    cases entriesOfBytes? right <;> rfl
  · rw [List.append_assoc, List.singleton_append, entriesOfBytes?_append_lf,
      entriesOfBytes?_append_lineFeed]

private theorem Unreadable.eq_nil_of_read (unreadable : Unreadable line) {entries : List Entry}
    (read : entriesOfBytes? line = some entries) : entries = [] := by
  obtain ⟨clean, unread⟩ := unreadable
  obtain ⟨text, decoded, rfl⟩ := Option.map_eq_some_iff.1 read
  obtain rfl := Text.ofBytes?_eq_some_iff.1 decoded
  have nothing : entryOfLine? text.toList = none := by
    unfold entryOfLine?
    obtain blank | broken := unread text decoded
    · simp [blank]
    · simp only [broken, ite_self]
  exact entriesOfText_of_line (mt Text.lineFeed_mem_bytes.2 clean) nothing

private theorem StartsLine.read_of_append_line (starts : StartsLine content)
    (unreadable : Unreadable line)
    {entries : List Entry} (read : entriesOfBytes? (content ++ line) = some entries) :
    entriesOfBytes? content = some entries := by
  rw [starts.entriesOfBytes?_append] at read
  obtain ⟨before, readBefore, read⟩ := Option.bind_eq_some_iff.1 read
  obtain ⟨inserted, readLine, rfl⟩ := Option.map_eq_some_iff.1 read
  rw [unreadable.eq_nil_of_read readLine, List.append_nil]
  exact readBefore

private theorem Littered.read_content (litters : Littered content littered) {entries : List Entry}
    (read : entriesOfBytes? littered = some entries) : entriesOfBytes? content = some entries := by
  -- Each line goes in at a line start, so that what stands on its sides is read as before.
  induction litters generalizing entries with
  | same => exact read
  | @line before line after rest starts unreadable ih =>
    rw [entriesOfBytes?_append_lf] at read
    obtain ⟨upTo, readUpTo, read⟩ := Option.bind_eq_some_iff.1 read
    obtain ⟨behind, readBehind, rfl⟩ := Option.map_eq_some_iff.1 read
    refine ih ?_
    rw [starts.entriesOfBytes?_append, starts.read_of_append_line unreadable readUpTo, readBehind]
    rfl
  | last rest starts unreadable ih => exact ih (starts.read_of_append_line unreadable read)
  | ended rest ih =>
    rw [entriesOfBytes?_append_lineFeed] at read
    exact ih read

private theorem Littered.entriesOfBytes?_eq (litters : Littered content littered)
    (text : (Text.ofBytes? content).isSome → (Text.ofBytes? littered).isSome) :
    entriesOfBytes? littered = entriesOfBytes? content := by
  cases read : entriesOfBytes? littered with
  | some entries => exact (litters.read_content read).symm
  | none =>
    have noText : Text.ofBytes? littered = none := Option.map_eq_none_iff.1 read
    rw [noText] at text
    cases decoded : Text.ofBytes? content with
    | none => rw [entriesOfBytes?, decoded, Option.map_none]
    | some _ =>
      rw [decoded] at text
      cases text rfl

end GuildFile

/-- The entry is the one that the operation wrote, where this is what it found under the key and what it
answered. An entry set takes the place of the one found; an update gives it a new value, or makes a new
one, and answers it. -/
def StoreOperation.Wrote (now : Instant) (found : Option Entry) (reply : StoreReply)
    (written : Entry) : StoreOperation → Prop
  | .set entry _ => reply = .written ∧ written = Keyspace.succeeding entry found
  | .update guild key _ next => reply = .updated written ∧
      ∃ value, next found = .ok value ∧ written = Keyspace.revised guild key value now found
  | .get _ _ | .delete _ _ | .count _ | .search _ _ => False

namespace Keyspace

variable {space : Keyspace} {now : Instant} {key : String} {maxKeys : Nat} {written entry : Entry}

private theorem WellFormed.mem_entries_insert (formed : space.WellFormed) (own : written.key = key)
    (valid : written.Valid) : entry ∈ entries (Dict.insert key written (space.purge now)) ↔
      entry = written ∨ entry.key ≠ key ∧ space.get? entry.key now = some entry := by
  rw [((formed.purge now).insert own valid).mem_entries]
  by_cases same : entry.key = key
  · rw [same, Dict.find?_insert_self, Option.some.injEq]
    simp [eq_comm]
  · have other : entry ≠ written := fun equal => same (equal ▸ own)
    rw [Dict.find?_insert_of_ne same, find?_purge_eq_get? formed.ordered]
    simp [same, other]

private theorem key_succeeding (entry : Entry) (found : Option Entry) :
    (succeeding entry found).key = entry.key := by
  cases found <;> rfl

private theorem WellFormed.valid_succeeding (formed : space.WellFormed) (valid : entry.Valid) :
    (succeeding entry (space.get? key now)).Valid := by
  cases found : space.get? key now with
  | none => exact valid
  | some old =>
    obtain ⟨-, -, created, -⟩ := formed.find? (Option.filter_eq_some_iff.1 found).1
    exact ⟨valid.1, created, valid.2.2⟩

private theorem WellFormed.key_revised (formed : space.WellFormed) (guild value : String) :
    (revised guild key value now (space.get? key now)).key = key := by
  cases found : space.get? key now with
  | none => rfl
  | some old =>
    have own : old.key = key := formed.key_of_get? found
    exact own

private theorem WellFormed.valid_revised (formed : space.WellFormed) (instant : now.Valid)
    (guild value : String) : (revised guild key value now (space.get? key now)).Valid := by
  cases found : space.get? key now with
  | none => exact ⟨nofun, instant, instant⟩
  | some old =>
    obtain ⟨-, expires, created, -⟩ := formed.find? (Option.filter_eq_some_iff.1 found).1
    exact ⟨expires, created, instant⟩

private theorem WellFormed.exists_wrote (formed : space.WellFormed) {o : StoreOperation}
    (instant : now.Valid) (valid : o.WritesValid)
    (writes : (StoreCall.operation o).target? = some (key, maxKeys)) {reply : StoreReply}
    (answered : (o.onKeyspace space now).1 = .ok reply) :
    ∃ written, o.Wrote now (space.get? key now) reply written ∧ written.key = key ∧
      written.Valid ∧ (o.onKeyspace space now).2 = Dict.insert key written (space.purge now) := by
  cases o with
  | get _ _ | delete _ _ | count _ | search _ _ => cases writes
  | set entry n =>
    cases writes
    simp only [StoreOperation.onKeyspace, set_eq formed.ordered] at answered ⊢
    split at answered
    next => cases answered
    next room =>
      cases answered
      rw [if_neg room]
      exact ⟨_, ⟨rfl, rfl⟩, key_succeeding _ _, formed.valid_succeeding valid, rfl⟩
  | update guild key n next =>
    cases writes
    simp only [StoreOperation.onKeyspace, update_eq formed.ordered] at answered ⊢
    split at answered
    next => cases answered
    next room =>
      rw [if_neg room]
      cases made : next (space.get? key now) with
      | error e =>
        rw [made] at answered
        cases answered
      | ok value =>
        rw [made] at answered
        cases answered
        exact ⟨_, ⟨rfl, value, made, rfl⟩, formed.key_revised guild value,
          formed.valid_revised instant guild value, rfl⟩

end Keyspace

namespace Store

variable {f : LineFileStore} {now : Instant} {after : Store} {α β : Type}

/-- An action that has changed a keyspace of a store in files has replaced the file of the guild. -/
private theorem exists_file_of_change {guild : String} {counts : α → Bool} {answer : α → β} {b : β}
    {operation : Keyspace → Instant → Except StoreError α × Keyspace}
    (ran : (files f).run now (answer <$> change guild counts operation) = (.ok b, after))
    (counted : ∀ a, counts a = true) :
    ∃ space g, (files f).load guild = .ok space ∧ (operation space now).1.map answer = .ok b ∧
      after = files g ∧
      g.file guild = .text (GuildFile.textOfEntries (operation space now).2.entries) := by
  rw [run_map] at ran
  obtain ⟨answered, rfl⟩ := Prod.mk.inj ran
  obtain ⟨a, made, -⟩ := exists_ok_of_map answered
  obtain ⟨e, failed⟩ | ⟨space, kept, loaded, keeps, changed⟩ :=
    change_cases (files f) guild now counts operation
  · rw [failed] at made
    cases made
  · rw [changed] at made answered ⊢
    have isChange : isChange counts (operation space now).1 = true := made ▸ counted a
    rw [isChange] at keeps
    obtain ⟨unchanged, -⟩ | ⟨-, -, rfl⟩ := keep_files_cases keeps
    · cases unchanged
    · exact ⟨space, _, loaded, answered, rfl, f.file_withFile_self guild _⟩

private theorem exists_file_of_perform {o : StoreOperation} {key : String} {maxKeys : Nat}
    (writes : (StoreCall.operation o).target? = some (key, maxKeys)) {reply : StoreReply}
    (ran : (files f).run now o.perform = (.ok reply, after)) :
    ∃ space g, (files f).load o.guild = .ok space ∧ (o.onKeyspace space now).1 = .ok reply ∧
      after = files g ∧
      g.file o.guild = .text (GuildFile.textOfEntries (o.onKeyspace space now).2.entries) := by
  cases o with
  | get _ _ | delete _ _ | count _ | search _ _ => cases writes
  | set entry n => exact exists_file_of_change ran fun _ => rfl
  | update guild key n next => exact exists_file_of_change ran fun _ => rfl

/-- Lines that are blank or hold no entry, inserted into the file of a guild at any positions, change no
answer to the guild in any history, unless the file was a text and is none with them: then every operation
on the guild fails. After a set or an update that succeeds, the file holds the entry written and the
others that live, one line each, in the order of the bytes of their keys, and these are loaded from it. -/
theorem litter_harmless (f : LineFileStore) :
    (∀ (g : LineFileStore) (guild : String) (content littered : List UInt8),
      f.file guild = .ofBytes content → g.file guild = .ofBytes littered →
      GuildFile.Littered content littered →
      (((Text.ofBytes? content).isSome → (Text.ofBytes? littered).isSome) →
        ∀ history : List (Instant × StoreOperation),
          (((files g).log history).filter fun p => p.1.guild = guild) =
            ((files f).log history).filter fun p => p.1.guild = guild) ∧
      (Text.ofBytes? littered = none → LineFileStore.isGuildName guild = true →
        ∀ (o : StoreOperation) (now : Instant), o.guild = guild →
          (files g).run now o.perform = (.error (.io .notText), files g))) ∧
    ∀ (o : StoreOperation) (key : String) (maxKeys : Nat) (now : Instant) (reply : StoreReply)
      (after : Store), now.Valid → o.WritesValid →
      (StoreCall.operation o).target? = some (key, maxKeys) →
      (files f).run now o.perform = (.ok reply, after) →
      ∃ found written g entries, ((files f).run now (get o.guild key)).1 = .ok found ∧
        o.Wrote now found reply written ∧ after = files g ∧
        g.file o.guild =
          .ofBytes (entries.flatMap fun e => Text.bytes e.toJson.compact ++ [lineFeed]) ∧
        (∀ e ∈ entries, lineFeed ∉ Text.bytes e.toJson.compact) ∧
        (entries.map fun e => Text.bytes e.key).Pairwise (· < ·) ∧
        (∀ e, e ∈ entries ↔ e = written ∨
          e.key ≠ key ∧ ((files f).run now (get o.guild e.key)).1 = .ok (some e)) ∧
        ∃ left, after.load o.guild = .ok left ∧ left.entries = entries := by
  constructor
  · intro g guild content littered here there litters
    refine ⟨fun text history => ?_, fun noText named o now own => ?_⟩
    · have agree : (files g).AgreeOn guild (files f) := by
        change (g.file guild).Alike (f.file guild)
        rw [here, there]
        exact GuildFile.alike_ofBytes (litters.entriesOfBytes?_eq text)
      rw [agree.log_filter, (agreeOn_refl guild (files f)).log_filter]
    · have unread : GuildFile.entriesOfBytes? littered = none := by
        rw [GuildFile.entriesOfBytes?, noText, Option.map_none]
      refine o.run_of_error now ?_
      rw [own, load, LineFileStore.load, if_pos named, there, GuildFile.load_ofBytes, unread]
  · intro o key maxKeys now reply after instant valid writes ran
    obtain ⟨space, g, loaded, answered, rfl, file⟩ := exists_file_of_perform writes ran
    obtain ⟨named, stands⟩ := load_files_eq_ok.1 loaded
    have formed := GuildFile.wellFormed_of_load stands
    obtain ⟨written, wrote, own, times, left⟩ := formed.exists_wrote instant valid writes answered
    rw [left] at file
    have formedAfter := (formed.purge now).insert own times
    refine ⟨space.get? key now, written, g, Keyspace.entries (Dict.insert key written (space.purge now)),
      ?_, wrote, rfl, ?_, fun e _ => GuildFile.lineFeed_notMem_row e, ?_, fun e => ?_,
      Dict.insert key written (space.purge now), ?_, rfl⟩
    · rw [get, run_look loaded]
    · rw [file, ← GuildFile.bytes_textOfEntries, GuildFile.ofBytes_bytes]
    · exact List.pairwise_map.2 (formedAfter.entries_pairwise.imp Text.bytes_lt)
    · rw [get, run_look loaded, Except.ok.injEq]
      exact formed.mem_entries_insert own times
    · rw [load_files_eq_ok, file]
      exact ⟨named, (GuildFile.holds_textOfEntries formedAfter).1⟩

end Store

def keptEntry : Entry where
  guild := "1"
  key := "k"
  value := "v"
  createdAt := ⟨1546300800, 0⟩
  updatedAt := ⟨1546300800, 0⟩

def freshEntry : Entry := { keptEntry with key := "j" }

def brokenRecord : String := "\x7b\"guild_id\":\"1\",\"key\":"

def keptBytes : List UInt8 := Text.bytes (GuildFile.textOfEntries [keptEntry])

/-- A line in front of the entry that is no JSON, and a broken record behind it. -/
def litteredText : String :=
  "garbage" ++ "\n" ++ GuildFile.textOfEntries [keptEntry] ++ brokenRecord

def fileOf (content : List UInt8) : LineFileStore := { files := [("1", .ofBytes content)] }

private theorem file_fileOf (content : List UInt8) :
    (fileOf content).file "1" = .ofBytes content := by
  simp [fileOf, LineFileStore.file, Dict.find?]

private theorem startsLine_keptBytes : GuildFile.StartsLine keptBytes := by
  refine .inr ⟨Text.bytes keptEntry.toJson.compact, ?_⟩
  rw [keptBytes, GuildFile.bytes_textOfEntries]
  simp

private theorem littered_litteredText : GuildFile.Littered keptBytes (Text.bytes litteredText) := by
  have shape : Text.bytes litteredText =
      [] ++ Text.bytes "garbage" ++ lineFeed :: keptBytes ++ Text.bytes brokenRecord := by
    simp only [litteredText, Text.bytes_append, List.append_assoc]
    rfl
  have starts : GuildFile.StartsLine ([] ++ Text.bytes "garbage" ++ lineFeed :: keptBytes) := by
    obtain nothing | ⟨earlier, ends⟩ := startsLine_keptBytes
    · exact .inr ⟨Text.bytes "garbage", by rw [nothing]; rfl⟩
    · exact .inr ⟨Text.bytes "garbage" ++ lineFeed :: earlier, by rw [ends]; simp⟩
  rw [shape]
  refine .last (.line .same (.inl rfl) ?_) starts ?_
  · exact GuildFile.unreadable_bytes (by decide) (.inr (by decide +kernel))
  · exact GuildFile.unreadable_bytes (by decide) (.inr (by decide +kernel))

private theorem isSome_litteredText :
    (Text.ofBytes? keptBytes).isSome → (Text.ofBytes? (Text.bytes litteredText)).isSome := by
  intro _
  rw [Text.ofBytes?_bytes]
  rfl

private theorem valid_keptEntry : keptEntry.Valid := ⟨nofun, by decide, by decide⟩

private theorem entriesOfBytes?_keptBytes :
    GuildFile.entriesOfBytes? keptBytes = some [keptEntry] := by
  rw [GuildFile.entriesOfBytes?, keptBytes, Text.ofBytes?_bytes]
  refine congrArg some (GuildFile.entriesOfText_textOfEntries fun e member => ?_)
  rw [List.mem_singleton.1 member]
  exact valid_keptEntry

private theorem holds_fileOf {content : List UInt8}
    (read : GuildFile.entriesOfBytes? content = some [keptEntry]) :
    (Store.files (fileOf content)).Holds "1" [("k", keptEntry)] := by
  refine ⟨Keyspace.wellFormed_nil.insert rfl valid_keptEntry, rfl, ?_⟩
  rw [file_fileOf]
  refine ⟨?_, GuildFile.ofBytes_ne_blocked content⟩
  rw [GuildFile.load_ofBytes, read]
  rfl

private theorem log_fileOf {content : List UInt8}
    (read : GuildFile.entriesOfBytes? content = some [keptEntry]) :
    (((Store.files (fileOf content)).log [(⟨1600000000, 0⟩, .get "1" "k")]).filter
      fun p => p.1.guild = "1").map Prod.snd = [.ok (.found (some keptEntry))] := by
  have found := (holds_fileOf read).run_get ⟨1600000000, 0⟩ "k"
  have live : Keyspace.get? [("k", keptEntry)] "k" ⟨1600000000, 0⟩ = some keptEntry := rfl
  rw [live] at found
  simp [Store.log, StoreOperation.perform, StoreOperation.guild, Store.run_map, found, Except.map]

theorem litteredText_answers :
    (((Store.files (fileOf (Text.bytes litteredText))).log [(⟨1600000000, 0⟩, .get "1" "k")]).filter
        fun p => p.1.guild = "1").map Prod.snd = [.ok (.found (some keptEntry))] ∧
      ∃ (entries : List Entry) (g : LineFileStore),
        ((Store.files (fileOf (Text.bytes litteredText))).run ⟨1600000000, 0⟩
          (StoreOperation.set freshEntry 9).perform).2 = .files g ∧
        g.file "1" =
          .ofBytes (entries.flatMap fun e => Text.bytes e.toJson.compact ++ [lineFeed]) ∧
        keptEntry ∈ entries := by
  constructor
  · have harmless := (Store.litter_harmless _).1 _ "1" _ _ (file_fileOf keptBytes)
      (file_fileOf (Text.bytes litteredText)) littered_litteredText
    rw [harmless.1 isSome_litteredText]
    exact log_fileOf entriesOfBytes?_keptBytes
  · have read : GuildFile.entriesOfBytes? (Text.bytes litteredText) = some [keptEntry] :=
      (littered_litteredText.entriesOfBytes?_eq isSome_litteredText).trans entriesOfBytes?_keptBytes
    have holds := holds_fileOf read
    have found := congrArg Prod.fst (holds.run_get ⟨1600000000, 0⟩ "k")
    obtain ⟨after, left, sets, -, -⟩ :=
      @Store.Holds.run_set _ _ ⟨1600000000, 0⟩ freshEntry holds valid_keptEntry 9
    have ran : (Store.files (fileOf (Text.bytes litteredText))).run ⟨1600000000, 0⟩
        (StoreOperation.set freshEntry 9).perform = (.ok .written, after) := by
      rw [StoreOperation.perform, Store.run_map, sets]
      rfl
    obtain ⟨_, _, g, entries, -, -, kept, file, -, -, contents, -⟩ :=
      (Store.litter_harmless _).2 (.set freshEntry 9) "j" 9 _ _ _ (by decide) valid_keptEntry rfl ran
    refine ⟨entries, g, ?_, file, (contents keptEntry).2 (.inr ⟨by decide, found⟩)⟩
    rw [ran, kept]

/-- A line with a byte that no text has makes the file unreadable, though it holds no entry either. -/
theorem garbled_line_fails :
    ¬ ∀ (f g : LineFileStore) (guild : String) (content littered : List UInt8),
      f.file guild = .ofBytes content → g.file guild = .ofBytes littered →
      GuildFile.Littered content littered →
      ∀ history : List (Instant × StoreOperation),
        (((Store.files g).log history).filter fun p => p.1.guild = guild) =
          ((Store.files f).log history).filter fun p => p.1.guild = guild := by
  intro harmless
  have noText : Text.ofBytes? [255] = none :=
    Text.ofBytes?_eq_none_of_mem List.mem_cons_self (by decide)
  have unreadable : GuildFile.Unreadable [255] := by
    refine ⟨by decide, fun text read => ?_⟩
    rw [noText] at read
    cases read
  have rest : GuildFile.Littered keptBytes (keptBytes ++ []) := by
    rw [List.append_nil]
    exact .same
  have answers := congrArg (List.map Prod.snd) (harmless _ _ "1" _ _ (file_fileOf keptBytes)
    (file_fileOf _) (.line rest startsLine_keptBytes unreadable)
    [(⟨1600000000, 0⟩, .get "1" "k")])
  rw [log_fileOf entriesOfBytes?_keptBytes] at answers
  have garbled : Text.ofBytes? (keptBytes ++ [255] ++ [lineFeed]) = none :=
    Text.ofBytes?_eq_none_of_mem (b := 255) (by simp) (by decide)
  rw [fileOf, GuildFile.ofBytes, garbled] at answers
  have lost : (((Store.files { files := [("1", .ofRead (.error .notText))] }).log
      [(⟨1600000000, 0⟩, .get "1" "k")]).filter fun p => p.1.guild = "1").map Prod.snd =
        [.error (.io .notText)] := by decide +kernel
  cases lost.symm.trans answers

end GuildSandbox

import GuildSandbox.Proofs.Value.Views
import GuildSandbox.Store.Basic

set_option autoImplicit false
set_option relaxedAutoImplicit false

namespace GuildSandbox

namespace MemoryStore

@[simp]
theorem keyspace_withKeyspace_self (m : MemoryStore) (guild : String) (space : Keyspace) :
    (m.withKeyspace guild space).keyspace guild = space := by
  rw [keyspace, withKeyspace, Dict.find?_insert_self, Option.getD_some]

theorem keyspace_withKeyspace_of_ne {guild other : String} (different : other ≠ guild)
    (m : MemoryStore) (space : Keyspace) :
    (m.withKeyspace guild space).keyspace other = m.keyspace other := by
  rw [keyspace, withKeyspace, Dict.find?_insert_of_ne different, keyspace]

end MemoryStore

namespace LineFileStore

def withFile (f : LineFileStore) (guild : String) (file : GuildFile) : LineFileStore :=
  { f with files := Dict.insert guild file f.files }

@[simp]
theorem file_withFile_self (f : LineFileStore) (guild : String) (file : GuildFile) :
    (f.withFile guild file).file guild = file := by
  rw [LineFileStore.file, withFile, Dict.find?_insert_self, Option.getD_some]

theorem file_withFile_of_ne {guild other : String} (different : other ≠ guild) (f : LineFileStore)
    (file : GuildFile) : (f.withFile guild file).file other = f.file other := by
  rw [LineFileStore.file, withFile, Dict.find?_insert_of_ne different, LineFileStore.file]

end LineFileStore

private theorem GuildFile.eq_text_of_save {file saved : GuildFile} {space : Keyspace}
    (written : file.save space = .ok saved) : saved = .text (textOfEntries space.entries) := by
  cases file with
  | missing | text => cases written; rfl
  | unreadable | blocked => cases written

namespace Store

variable {f : LineFileStore} {guild : String} {space left : Keyspace} {kept : Store}
  {changed : Bool}

theorem load_files_eq_ok : (files f).load guild = .ok space ↔
    LineFileStore.isGuildName guild = true ∧ (f.file guild).load = .ok space := by
  rw [load, LineFileStore.load]
  split
  next named => simp [named]
  next refused => simp [refused]

/-- A store in files stays as it is when nothing has changed. Otherwise the file of the guild, if it
can be written, is replaced by the lines of the keyspace. -/
theorem keep_files_cases (keeps : (files f).keep guild left changed = .ok kept) :
    changed = false ∧ kept = files f ∨
      changed = true ∧ (∃ file, (f.file guild).save left = .ok file) ∧
        kept = files (f.withFile guild (.text (GuildFile.textOfEntries left.entries))) := by
  cases changed with
  | false =>
    cases keeps
    exact .inl ⟨rfl, rfl⟩
  | true =>
    obtain ⟨g, saved, rfl⟩ := exists_ok_of_map keeps
    obtain ⟨file, written, made⟩ := exists_ok_of_bind saved
    cases made
    refine .inr ⟨rfl, ⟨file, written⟩, ?_⟩
    rw [← GuildFile.eq_text_of_save written]
    rfl

theorem keep_files_of_save {file : GuildFile} (written : (f.file guild).save left = .ok file) :
    (files f).keep guild left true = .ok (files (f.withFile guild file)) := by
  rw [keep, if_pos rfl, LineFileStore.save, written]
  rfl

end Store

end GuildSandbox

import GuildSandbox.Proofs.Json.RoundTrip
import GuildSandbox.Proofs.Text.Pieces
import GuildSandbox.Proofs.Time.Rfc3339
import GuildSandbox.Store.LineFile

set_option autoImplicit false
set_option relaxedAutoImplicit false

namespace GuildSandbox

open Time (Instant)

namespace Json

mutual

def EveryNumber (P : JsonNumber → Prop) : Json → Prop
  | .num n => P n
  | .arr items => EveryNumberOfItems P items
  | .obj fields => EveryNumberOfFields P fields
  | _ => True

def EveryNumberOfItems (P : JsonNumber → Prop) : List Json → Prop
  | [] => True
  | item :: rest => EveryNumber P item ∧ EveryNumberOfItems P rest

def EveryNumberOfFields (P : JsonNumber → Prop) : List (String × Json) → Prop
  | [] => True
  | (_, value) :: rest => EveryNumber P value ∧ EveryNumberOfFields P rest

end

private theorem lf_ne_hexDigit : ∀ n < 16, '\n' ≠ Text.hexDigit n := by decide

private theorem lf_notMem_escapeChar (c : Char) : '\n' ∉ escapeChar c := by
  unfold escapeChar
  iterate 7
    split
    · decide
  split
  next control =>
    have high := lf_ne_hexDigit (c.toNat / 16) (by omega)
    have low := lf_ne_hexDigit (c.toNat % 16) (by omega)
    simp [high, low]
  next visible =>
    intro member
    rw [← List.mem_singleton.1 member] at visible
    exact visible (by decide)

private theorem lf_notMem_renderString (s : String) : '\n' ∉ renderString s := by
  simp [renderString, lf_notMem_escapeChar]

mutual

theorem lf_notMem_render : (j : Json) → j.EveryNumber (fun n => '\n' ∉ renderNumber n) →
    '\n' ∉ render j
  | .null, _ => by decide
  | .bool true, _ => by decide
  | .bool false, _ => by decide
  | .num _, numbers => numbers
  | .str s, _ => lf_notMem_renderString s
  | .arr [], _ => by simp [render]
  | .arr (item :: rest), numbers => by
    have first := lf_notMem_render item numbers.1
    have others := lf_notMem_renderItems rest numbers.2
    simp [render, first, others]
  | .obj [], _ => by simp [render]
  | .obj ((name, value) :: rest), numbers => by
    have first := lf_notMem_render value numbers.1
    have others := lf_notMem_renderFields rest numbers.2
    simp [render, lf_notMem_renderString, first, others]

private theorem lf_notMem_renderItems : (items : List Json) →
    EveryNumberOfItems (fun n => '\n' ∉ renderNumber n) items → '\n' ∉ renderItems items
  | [], _ => by simp [renderItems]
  | item :: rest, numbers => by
    have first := lf_notMem_render item numbers.1
    have others := lf_notMem_renderItems rest numbers.2
    simp [renderItems, first, others]

private theorem lf_notMem_renderFields : (fields : List (String × Json)) →
    EveryNumberOfFields (fun n => '\n' ∉ renderNumber n) fields → '\n' ∉ renderFields fields
  | [], _ => by simp [renderFields]
  | (name, value) :: rest, numbers => by
    have first := lf_notMem_render value numbers.1
    have others := lf_notMem_renderFields rest numbers.2
    simp [renderFields, lf_notMem_renderString, first, others]

end

end Json

namespace Entry

def Valid (e : Entry) : Prop :=
  (∀ t ∈ e.expiresAt, t.Valid) ∧ e.createdAt.Valid ∧ e.updatedAt.Valid

theorem ofJson?_toJson {e : Entry} (valid : e.Valid) : ofJson? e.toJson = some e := by
  obtain ⟨guild, key, value, expiresAt, createdAt, updatedAt⟩ := e
  obtain ⟨expires, created, updated⟩ := valid
  cases expiresAt with
  | none =>
    simp [ofJson?, toJson, fieldNames, Json.recordFields?, Json.namedFields?, Json.always, Json.whenPresent,
      Json.required, Json.optional, Json.withDefault, Json.toStr?, instant?,
      Instant.ofText?_toText created, Instant.ofText?_toText updated]
  | some t =>
    simp [ofJson?, toJson, fieldNames, Json.recordFields?, Json.namedFields?, Json.always, Json.whenPresent,
      Json.required, Json.optional, Json.withDefault, Json.nullable, Json.toStr?, instant?,
      Instant.ofText?_toText (expires t rfl), Instant.ofText?_toText created,
      Instant.ofText?_toText updated]

private theorem valid_instant? {j : Json} {t : Instant} (read : instant? j = some t) :
    t.Valid := by
  obtain ⟨text, -, read⟩ := Option.bind_eq_some_iff.1 read
  exact Instant.valid_ofText? read

theorem valid_ofJson? {j : Json} {e : Entry} (read : ofJson? j = some e) :
    e.Valid := by
  simp only [ofJson?, Option.bind_eq_bind, Option.bind_eq_some_iff] at read
  obtain ⟨fields, -, read⟩ := read
  split at read
  · simp only [Option.pure_def, Option.bind_eq_some_iff] at read
    obtain ⟨_, -, _, -, _, -, expiry, expires, created, createdAt, updated, updatedAt, read⟩ := read
    cases read
    have required {field : Option Json} {t : Instant}
        (there : Json.required instant? field = some t) : t.Valid := by
      cases field with
      | none => cases there
      | some j => exact valid_instant? there
    have optional {field : Option Json} {found : Option Instant}
        (there : Json.optional instant? field = some found) : ∀ t ∈ found, t.Valid := by
      rintro t rfl
      cases field with
      | none => cases there
      | some j =>
        change Json.nullable instant? j = _ at there
        unfold Json.nullable at there
        split at there
        · cases there
        · obtain ⟨_, read, same⟩ := Option.map_eq_some_iff.1 there
          cases same
          exact valid_instant? read
    exact ⟨optional expires, required createdAt, required updatedAt⟩
  · cases read

end Entry

namespace GuildFile

open Json (always whenPresent)

theorem numbers_toJson (e : Entry) (P : JsonNumber → Prop) : e.toJson.EveryNumber P := by
  cases h : e.expiresAt <;>
    simp [Entry.toJson, h, always, whenPresent, Json.EveryNumber, Json.EveryNumberOfFields]

private theorem height_toJson (e : Entry) : e.toJson.height = 2 := by
  cases h : e.expiresAt <;>
    simp [Entry.toJson, h, always, whenPresent, Json.height, Json.heightFields]

private theorem known_toJson (e : Entry) : ∀ fields, e.toJson = .obj fields →
    ∀ field ∈ fields, Entry.fieldNames.contains field.1 = true := by
  intro fields made
  cases made
  cases e.expiresAt <;> simp [Entry.fieldNames, always, whenPresent]

private theorem exists_renderFields (fields : List (String × Json)) :
    ∃ inner, Json.renderFields fields = inner ++ ['\x7d'] := by
  induction fields with
  | nil => exact ⟨[], rfl⟩
  | cons field rest ih =>
    obtain ⟨inner, text⟩ := ih
    refine ⟨',' :: (Json.renderString field.1 ++ ':' :: (Json.render field.2 ++ inner)), ?_⟩
    simp [Json.renderFields, text]

private theorem exists_braces (fields : List (String × Json)) :
    ∃ inner, Json.render (.obj fields) = '\x7b' :: (inner ++ ['\x7d']) := by
  rcases fields with _ | ⟨⟨name, value⟩, rest⟩
  · exact ⟨[], rfl⟩
  · obtain ⟨inner, text⟩ := exists_renderFields rest
    refine ⟨Json.renderString name ++ ':' :: (Json.render value ++ inner), ?_⟩
    simp [Json.render, text]

theorem entryOfLine?_render_eq (e : Entry) :
    entryOfLine? (Json.render e.toJson) = Entry.ofJson? e.toJson := by
  obtain ⟨inner, braces⟩ : ∃ inner, Json.render e.toJson = '\x7b' :: (inner ++ ['\x7d']) :=
    exists_braces _
  have trimmed : Text.trim (Json.render e.toJson) = Json.render e.toJson := by
    rw [braces]
    exact Text.trim_of_visible_ends rfl rfl inner
  have text : Json.parseRecord? Entry.fieldNames (String.ofList (Json.render e.toJson)) =
      some e.toJson :=
    Json.parseRecord?_of_parse? (Json.parse?_compact (by rw [height_toJson]; decide))
      (known_toJson e _ rfl)
  have nonempty : (Json.render e.toJson).isEmpty = false := by rw [braces]; rfl
  rw [entryOfLine?, trimmed, nonempty, Entry.ofText?, text]
  rfl

private theorem entryOfLine?_render {e : Entry} (valid : e.Valid) :
    entryOfLine? (Json.render e.toJson) = some e := by
  rw [entryOfLine?_render_eq, Entry.ofJson?_toJson valid]

theorem toList_textOfEntries (entries : List Entry) : (textOfEntries entries).toList =
    (entries.map fun e => Json.render e.toJson).flatMap fun line => line ++ ['\n'] := by
  simp [textOfEntries, String.toList_join, Json.compact, List.flatMap_map]

theorem lines_textOfEntries (entries : List Entry) :
    lines (textOfEntries entries) = entries.map fun e => Json.render e.toJson := by
  have clean : ∀ line ∈ entries.map fun e => Json.render e.toJson, '\n' ∉ line := by
    intro line member
    obtain ⟨e, -, rfl⟩ := List.mem_map.1 member
    exact Json.lf_notMem_render e.toJson (numbers_toJson e _)
  have noReturn : ∀ e : Entry, (Json.render e.toJson).getLast? ≠ some '\r' := by
    intro e
    obtain ⟨inner, braces⟩ : ∃ inner, Json.render e.toJson = '\x7b' :: (inner ++ ['\x7d']) :=
      exists_braces _
    rw [braces, ← List.cons_append, List.getLast?_concat]
    decide
  rw [lines, toList_textOfEntries, Text.splitOn_flatMap clean]
  simp [noReturn]

theorem entriesOfText_textOfEntries {entries : List Entry} (valid : ∀ e ∈ entries, e.Valid) :
    entriesOfText (textOfEntries entries) = entries := by
  rw [entriesOfText, lines_textOfEntries, List.filterMap_map]
  have reads : ∀ e ∈ entries, (entryOfLine? ∘ fun e => Json.render e.toJson) e = some e :=
    fun e member => entryOfLine?_render (valid e member)
  rw [List.filterMap_congr reads, List.filterMap_some]

end GuildFile

end GuildSandbox

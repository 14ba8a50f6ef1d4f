import GuildSandbox.Proofs.Store.Opening
import GuildSandbox.Proofs.Value.Views

set_option autoImplicit false
set_option relaxedAutoImplicit false

namespace GuildSandbox

namespace Path

private theorem names_append_slash (left right : List Char) :
    names (String.ofList (left ++ '/' :: right)) =
      names (String.ofList left) ++ names (String.ofList right) := by
  simp [names, Text.splitOn_append_sep]

end Path

namespace FileTree

variable {t : FileTree} {place : List String}

private theorem walk_append (t : FileTree) (place first rest : List String) :
    t.walk place (first ++ rest) = (t.walk place first).bind fun there => t.walk there rest := by
  induction first generalizing place with
  | nil => rfl
  | cons name names ih =>
    simp only [List.cons_append, walk]
    cases t.node? place with
    | none => rfl
    | some node =>
      cases node with
      | directory =>
        simp only
        split
        · exact ih place
        · split
          · exact ih place.dropLast
          · exact ih (place ++ [name])
      | text content | binary => rfl

private theorem exists_key_append (place : List String) : ∃ stem : String, ∀ outer inner : String,
    key (place ++ [outer, inner]) = stem ++ (outer ++ ("/" ++ inner)) := by
  cases place with
  | nil => exact ⟨"", fun outer inner => by simp [key, String.append_assoc]⟩
  | cons name rest =>
    refine ⟨key (name :: rest) ++ "/", fun outer inner => ?_⟩
    rw [key, key, String.intercalate_append_of_ne_nil (by simp) (by simp)]
    simp [String.append_assoc]

private theorem eq_of_key {outer other inner : String}
    (same : key (place ++ [other, inner]) = key (place ++ [outer, inner])) : other = outer := by
  obtain ⟨stem, keys⟩ := exists_key_append place
  rw [keys, keys] at same
  have letters := congrArg String.toList same
  simpa only [String.toList_append, List.append_cancel_left_eq, List.append_cancel_right_eq,
    String.toList_inj] using letters

private theorem node?_insert_self (nonroot : place ≠ []) (node : FileNode) (t : FileTree) :
    node? (Dict.insert (key place) node t) place = some node := by
  rw [node?, if_neg (by simp [nonroot]), Dict.find?_insert_self]

private theorem node?_insert_of_ne {written : List String} (different : key place ≠ key written)
    (node : FileNode) (t : FileTree) :
    node? (Dict.insert (key written) node t) place = node? t place := by
  rw [node?, node?, Dict.find?_insert_of_ne different]

end FileTree

namespace LineFileStore

variable {guild other : String}

private theorem leads_of_isGuildName (accepted : isGuildName guild = true) :
    Path.isHere guild = false ∧ guild ≠ ".." := by
  obtain ⟨nonempty, -, noDot⟩ := plain_of_isGuildName accepted
  constructor
  · simp only [Path.isHere, nonempty, decide_false, Bool.false_or, decide_eq_false_iff_not]
    rintro rfl
    exact noDot (by decide)
  · rintro rfl
    exact noDot (by decide)

/-- A directory is put before the name of a guild with a slash between them, if it has a name. -/
private theorem exists_toList_directory (base : String) : ∃ stem : List Char,
    (stem = [] ∨ ∃ outer, stem = outer ++ ['/']) ∧
      ∀ guild, (directory base guild).toList = stem ++ guild.toList := by
  by_cases empty : base = ""
  · exact ⟨[], .inl rfl, fun guild => by simp [directory, Path.join, empty]⟩
  · by_cases ended : base.toList.getLast? = some '/'
    · obtain ⟨outer, text⟩ := List.getLast?_eq_some_iff.1 ended
      exact ⟨base.toList, .inr ⟨outer, text⟩,
        fun guild => by simp [directory, Path.join, ended]⟩
    · exact ⟨base.toList ++ ['/'], .inr ⟨base.toList, rfl⟩,
        fun guild => by simp [directory, Path.join, empty, ended]⟩

private theorem toList_path (base : String) (accepted : isGuildName guild = true) :
    (path base guild).toList = (directory base guild).toList ++ '/' :: "kv.jsonl".toList := by
  obtain ⟨nonempty, noSlash, -⟩ := plain_of_isGuildName accepted
  obtain ⟨stem, -, text⟩ := exists_toList_directory base
  have named : guild.toList ≠ [] := by simpa using nonempty
  have open_end : (directory base guild).toList.getLast? ≠ some '/' := by
    intro last
    rw [text, List.getLast?_append] at last
    obtain ⟨c, final⟩ := Option.ne_none_iff_exists'.1 (mt List.getLast?_eq_none_iff.1 named)
    rw [final, Option.some_or] at last
    exact noSlash (List.mem_of_getLast? (final.trans last))
  have somewhere : directory base guild ≠ "" := by
    intro none
    have long := text guild
    rw [none, String.toList_empty] at long
    exact named (List.append_eq_nil_iff.1 long.symm).2
  simp [path, Path.join, somewhere, open_end]

/-- The path of a guild ends in its name and that of the file. What is before depends only on the
directory of the store. -/
private theorem exists_names_path (base : String) : ∃ outer, ∀ guild, isGuildName guild = true →
    Path.names (path base guild) = outer ++ [guild, "kv.jsonl"] := by
  obtain ⟨stem, ended, text⟩ := exists_toList_directory base
  have file (guild : String) (accepted : isGuildName guild = true) :
      path base guild = String.ofList (stem ++ (path "" guild).toList) := by
    rw [← String.toList_inj, String.toList_ofList, toList_path base accepted,
      toList_path "" accepted, text, List.append_assoc]
    simp [directory, Path.join]
  obtain rfl | ⟨outer, rfl⟩ := ended
  · refine ⟨[], fun guild accepted => ?_⟩
    rw [file guild accepted, List.nil_append, String.ofList_toList, names_path accepted]
    rfl
  · refine ⟨Path.names (String.ofList outer), fun guild accepted => ?_⟩
    rw [file guild accepted, List.append_assoc, List.singleton_append, Path.names_append_slash,
      String.ofList_toList, names_path accepted]

private theorem path_ne_empty (base : String) (accepted : isGuildName guild = true) :
    path base guild ≠ "" := by
  intro empty
  have text := toList_path base accepted
  rw [empty, String.toList_empty] at text
  exact absurd text.symm (by simp)

private theorem walk_names (t : FileTree) (start : List String)
    (accepted : isGuildName guild = true) :
    t.walk start [guild, "kv.jsonl"] = match t.node? start, t.node? (start ++ [guild]) with
      | some .directory, some .directory => .ok (start ++ [guild, "kv.jsonl"])
      | some .directory, none | none, _ => .error .missing
      | some .directory, some _ | some _, _ => .error .notDirectory := by
  obtain ⟨moves, onward⟩ := leads_of_isGuildName accepted
  have file : Path.isHere "kv.jsonl" = false := by decide
  cases outer : t.node? start with
  | none => simp [FileTree.walk, outer]
  | some node =>
    cases node with
    | text | binary => simp [FileTree.walk, outer]
    | directory =>
      cases inner : t.node? (start ++ [guild]) with
      | none => simp [FileTree.walk, outer, moves, onward, inner]
      | some node => cases node <;> simp [FileTree.walk, outer, moves, onward, inner, file]

private theorem place_of_walk {t : FileTree} {start place : List String}
    (accepted : isGuildName guild = true)
    (found : t.walk start [guild, "kv.jsonl"] = .ok place) :
    place = start ++ [guild, "kv.jsonl"] := by
  rw [walk_names t start accepted] at found
  split at found
  all_goals cases found
  rfl

theorem key_ne_of_resolve {t : FileTree} {base : String} {place there : List String}
    (accepted : isGuildName guild = true) (acceptedToo : isGuildName other = true)
    (different : other ≠ guild) (found : t.resolve (path base guild) = .ok place)
    (foundToo : t.resolve (path base other) = .ok there) :
    FileTree.key there ≠ FileTree.key place := by
  obtain ⟨outer, names⟩ := exists_names_path base
  rw [FileTree.resolve, if_neg (path_ne_empty base accepted), names guild accepted,
    FileTree.walk_append] at found
  rw [FileTree.resolve, if_neg (path_ne_empty base acceptedToo), names other acceptedToo,
    FileTree.walk_append] at foundToo
  cases start : t.walk [] outer with
  | error e =>
    rw [start] at found
    cases found
  | ok base =>
    rw [start] at found foundToo
    rw [place_of_walk accepted found, place_of_walk acceptedToo foundToo]
    exact fun same => different (FileTree.eq_of_key same)

private theorem resolve_path (t : FileTree) (accepted : isGuildName guild = true) :
    t.resolve (path "" guild) = match t.node? [guild] with
      | some .directory => .ok [guild, "kv.jsonl"]
      | none => .error .missing
      | some _ => .error .notDirectory := by
  have root : t.node? [] = some .directory := rfl
  rw [FileTree.resolve, if_neg (path_ne_empty "" accepted), names_path accepted,
    walk_names t [] accepted, root, List.nil_append]
  cases t.node? [guild] with
  | none => rfl
  | some node => cases node <;> rfl

private theorem fileIn_congr {t written : FileTree} (accepted : isGuildName guild = true)
    (directory : written.node? [guild] = t.node? [guild])
    (file : written.node? [guild, "kv.jsonl"] = t.node? [guild, "kv.jsonl"]) :
    fileIn written guild = fileIn t guild := by
  rw [fileIn, fileIn, FileTree.readText, FileTree.readText, resolve_path written accepted,
    resolve_path t accepted, directory]
  cases t.node? [guild] with
  | none => rfl
  | some node =>
    cases node with
    | text | binary => rfl
    | directory => simp only [bind, Except.bind, file]

private theorem fileIn_of_text {t : FileTree} {content : String}
    (accepted : isGuildName guild = true)
    (directory : t.node? [guild] = some .directory)
    (file : t.node? [guild, "kv.jsonl"] = some (.text content)) :
    fileIn t guild = .text content := by
  rw [fileIn, FileTree.readText, resolve_path t accepted, directory]
  simp only [bind, Except.bind, file]
  rfl

/-- Writing the file of a guild makes its directory where there is none, and writes nothing but
those two. -/
private theorem grow_cases {t written : FileTree} {content : String}
    (accepted : isGuildName guild = true)
    (grown : t.grow (path "" guild) (.text content) = .ok written) :
    ∃ made, (made = t ∧ t.node? [guild] = some .directory ∨
        made = Dict.insert (FileTree.key [guild]) .directory t) ∧
      written = Dict.insert (FileTree.key [guild, "kv.jsonl"]) (.text content) made := by
  obtain ⟨moves, onward⟩ := leads_of_isGuildName accepted
  obtain ⟨made, extended, grown⟩ := exists_ok_of_bind grown
  obtain ⟨place, found, grown⟩ := exists_ok_of_bind grown
  have stem : (Path.names (path "" guild)).dropLast = [guild] := by
    rw [names_path accepted]
    rfl
  rw [stem] at extended
  simp only [FileTree.extend, moves, onward, List.nil_append, Bool.false_eq_true, if_false]
    at extended
  have there : place = [guild, "kv.jsonl"] := by
    rw [FileTree.resolve, if_neg (path_ne_empty "" accepted), names_path accepted] at found
    exact place_of_walk accepted found
  subst there
  refine ⟨made, ?_, ?_⟩
  · split at extended
    next => exact .inr (Except.ok.inj extended).symm
    next here => exact .inl ⟨(Except.ok.inj extended).symm, here⟩
    next => cases extended
  · split at grown
    · cases grown
    · exact (Except.ok.inj grown).symm

private theorem name_ne_key (accepted : isGuildName guild = true) (other : String) :
    FileTree.key [guild] ≠ FileTree.key [other, "kv.jsonl"] := by
  obtain ⟨-, noSlash, -⟩ := plain_of_isGuildName accepted
  intro same
  refine noSlash ?_
  have name : FileTree.key [guild] = guild := by simp [FileTree.key]
  rw [← name, same]
  simp [FileTree.key]

/-- Writing the file of one guild is read back, and the files of other guilds stay as they are. -/
theorem fileIn_grow {t written : FileTree} {content : String}
    (accepted : isGuildName guild = true)
    (grown : t.grow (path "" guild) (.text content) = .ok written) :
    fileIn written guild = .text content ∧
      ∀ other, isGuildName other = true → other ≠ guild →
        fileIn written other = fileIn t other := by
  obtain ⟨made, origin, rfl⟩ := grow_cases accepted grown
  constructor
  · have directory : made.node? [guild] = some .directory := by
      obtain ⟨rfl, here⟩ | rfl := origin
      · exact here
      · exact FileTree.node?_insert_self (by simp) _ t
    refine fileIn_of_text accepted ?_ (FileTree.node?_insert_self (by simp) _ made)
    rw [FileTree.node?_insert_of_ne (name_ne_key accepted guild), directory]
  · intro other acceptedToo different
    have apart : FileTree.key [other] ≠ FileTree.key [guild] := by
      simpa [FileTree.key] using different
    have files : FileTree.key [other, "kv.jsonl"] ≠ FileTree.key [guild, "kv.jsonl"] :=
      fun same => different (@FileTree.eq_of_key [] _ _ _ same)
    have kept (place : List String) (far : FileTree.key place ≠ FileTree.key [guild]) :
        made.node? place = t.node? place := by
      obtain ⟨rfl, -⟩ | rfl := origin
      · rfl
      · exact FileTree.node?_insert_of_ne far _ t
    apply fileIn_congr acceptedToo
    · rw [FileTree.node?_insert_of_ne (name_ne_key acceptedToo guild), kept _ apart]
    · rw [FileTree.node?_insert_of_ne files, kept _ (name_ne_key accepted other).symm]

end LineFileStore

end GuildSandbox

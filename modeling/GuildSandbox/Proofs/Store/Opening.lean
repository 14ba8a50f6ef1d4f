import GuildSandbox.Proofs.Text.Pieces
import GuildSandbox.Store.FileTree

set_option autoImplicit false
set_option relaxedAutoImplicit false

namespace GuildSandbox.LineFileStore

theorem plain_of_isGuildName {guild : String} (accepted : isGuildName guild = true) :
    guild ≠ "" ∧ '/' ∉ guild.toList ∧ '.' ∉ guild.toList := by
  obtain ⟨nonempty, plain⟩ := Bool.and_eq_true_iff.1 accepted
  have each := List.all_eq_true.1 plain
  refine ⟨?_, ?_, ?_⟩
  · rintro rfl
    exact absurd nonempty (by decide)
  · intro member
    exact absurd (each _ member) (by decide)
  · intro member
    exact absurd (each _ member) (by decide)

theorem names_path {guild : String} (accepted : isGuildName guild = true) :
    Path.names (path "" guild) = [guild, "kv.jsonl"] := by
  obtain ⟨nonempty, noSlash, -⟩ := plain_of_isGuildName accepted
  have open_end : guild.toList.getLast? ≠ some '/' := fun last =>
    noSlash (List.mem_of_getLast? last)
  have text : (path "" guild).toList = guild.toList ++ '/' :: "kv.jsonl".toList := by
    simp [path, directory, Path.join, nonempty, open_end]
  rw [Path.names, text, Text.splitOn_append noSlash]
  simp only [List.map_cons, String.ofList_toList]
  rfl

theorem fileIn_of_notMem {t : FileTree} {guild : String} (accepted : isGuildName guild = true)
    (absent : guild ∉ Dict.keys t) : fileIn t guild = .missing := by
  obtain ⟨nonempty, -, noDot⟩ := plain_of_isGuildName accepted
  have notHere : Path.isHere guild = false := by
    simp only [Path.isHere, nonempty, decide_false, Bool.false_or, decide_eq_false_iff_not]
    rintro rfl
    exact noDot (by decide)
  have notBack : guild ≠ ".." := by
    rintro rfl
    exact noDot (by decide)
  have somewhere : path "" guild ≠ "" := by
    intro empty
    have names := names_path accepted
    rw [empty] at names
    simp [Path.names, Text.splitOn] at names
  have root : t.node? [] = some .directory := rfl
  have noDirectory : t.node? [guild] = none := by
    simpa [FileTree.node?, FileTree.key] using Dict.find?_eq_none_iff.2 absent
  have lost : t.resolve (path "" guild) = .error .missing := by
    rw [FileTree.resolve, if_neg somewhere, names_path accepted]
    simp [FileTree.walk, root, notHere, notBack, noDirectory]
  rw [fileIn, FileTree.readText, lost]
  rfl

theorem file_ofTree (t : FileTree) {guild : String} (accepted : isGuildName guild = true) :
    (ofTree t).file guild = fileIn t guild := by
  rw [file, ofTree, Dict.find?_ofPairs_map]
  split
  next => rfl
  next absent => exact (fileIn_of_notMem accepted absent).symm

end GuildSandbox.LineFileStore

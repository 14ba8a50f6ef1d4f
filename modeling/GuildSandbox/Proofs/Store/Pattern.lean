import Mathlib.Data.List.Forall2
import Mathlib.Logic.Relation
import GuildSandbox.Store.Pattern

/-!
A text matches a pattern when it splits along it.

The scan behind `Pattern.isMatch` takes up again behind the last `%` only. No match is lost by that:
between two `%` every sign stands for one character, so whatever a longer run of an earlier `%` would
lead to, a longer run of the last one leads to as well.
-/

set_option autoImplicit false
set_option relaxedAutoImplicit false

namespace GuildSandbox.Pattern

def StandsFor (sign : Char) (piece : List Char) : Prop :=
  if sign = '%' then True else if sign = '_' then piece.length = 1 else piece = [sign]

/-- The text consists of one piece for each sign of the pattern, in order. -/
def Splits (pattern text : List Char) : Prop :=
  ∃ pieces, List.Forall₂ StandsFor pattern pieces ∧ pieces.flatten = text

theorem splits_nil {text : List Char} : Splits [] text ↔ text = [] := by
  simp [Splits, eq_comm]

private theorem splits_cons {sign : Char} {pattern text : List Char} :
    Splits (sign :: pattern) text ↔
      ∃ piece rest, StandsFor sign piece ∧ Splits pattern rest ∧ piece ++ rest = text := by
  constructor
  · rintro ⟨pieces, stand, rfl⟩
    obtain ⟨piece, others, first, rest, rfl⟩ := List.forall₂_cons_left_iff.1 stand
    exact ⟨piece, others.flatten, first, ⟨others, rest, rfl⟩, rfl⟩
  · rintro ⟨piece, -, first, ⟨others, rest, rfl⟩, rfl⟩
    exact ⟨piece :: others, .cons first rest, rfl⟩

theorem splits_percent {pattern text : List Char} :
    Splits ('%' :: pattern) text ↔ ∃ k, Splits pattern (text.drop k) := by
  rw [splits_cons]
  constructor
  · rintro ⟨piece, rest, -, split, rfl⟩
    exact ⟨piece.length, by rwa [List.drop_left]⟩
  · rintro ⟨k, split⟩
    exact ⟨text.take k, text.drop k, trivial, split, List.take_append_drop k text⟩

private theorem splits_single {sign : Char} {pattern text : List Char} (single : sign ≠ '%') :
    Splits (sign :: pattern) text ↔
      ∃ c rest, text = c :: rest ∧ (sign = '_' ∨ sign = c) ∧ Splits pattern rest := by
  have stands (piece : List Char) :
      StandsFor sign piece ↔ ∃ c, piece = [c] ∧ (sign = '_' ∨ sign = c) := by
    rw [StandsFor, if_neg single]
    split
    next any => simp [any, List.length_eq_one_iff]
    next same => simp [same]
  simp only [splits_cons, stands]
  constructor
  · rintro ⟨-, rest, ⟨c, rfl, fits⟩, split, rfl⟩
    exact ⟨c, rest, rfl, fits, split⟩
  · rintro ⟨c, rest, rfl, fits, split⟩
    exact ⟨[c], rest, ⟨c, rfl, fits⟩, split, rfl⟩

private theorem splits_empty {pattern : List Char} :
    Splits pattern [] ↔ pattern.all (· == '%') = true := by
  induction pattern with
  | nil => simp [splits_nil]
  | cons sign pattern ih =>
    by_cases percent : sign = '%'
    · subst percent
      simp [splits_percent, ih]
    · simp [splits_single percent, percent]

private theorem drop_of_getElem? {chars : Array Char} {i : Nat} {c : Char}
    (here : chars[i]? = some c) : chars.toList.drop i = c :: chars.toList.drop (i + 1) := by
  obtain ⟨before, rfl⟩ := Array.getElem?_eq_some_iff.1 here
  exact List.drop_eq_getElem_cons before

private theorem drop_of_getElem?_none {chars : Array Char} {i : Nat} (past : chars[i]? = none) :
    chars.toList.drop i = [] :=
  List.drop_eq_nil_of_le (Array.getElem?_eq_none_iff.1 past)

namespace Scan

variable {pattern text : Array Char} {s next : Scan}

/-- A scan keeps track of the answer: the text splits along the pattern exactly when the rest does
from here on, or the rest behind the last `%` does after a longer run. -/
structure Tracks (pattern text : Array Char) (s : Scan) : Prop where
  decides : Splits pattern.toList text.toList ↔
    Splits (pattern.toList.drop s.patternAt) (text.toList.drop s.textAt) ∨
      ∃ m ∈ s.mark, ∃ k, m.runEnd < k ∧
        Splits (pattern.toList.drop (m.signAt + 1)) (text.toList.drop k)
  /-- The signs since the last `%` stand for one character each, after a run of any length. -/
  carries : ∀ m ∈ s.mark, ∀ k, Splits (pattern.toList.drop (m.signAt + 1)) (text.toList.drop k) →
    Splits (pattern.toList.drop s.patternAt) (text.toList.drop (k + (s.textAt - m.runEnd)))

private theorem tracks_start : Tracks pattern text {} where
  decides := by simp
  carries _ marked := nomatch marked

/-- A split after a longer run of the last `%` is one from here on, further along in the text. -/
private theorem Tracks.further (tracks : s.Tracks pattern text) (inside : s.Inside pattern text)
    (longer : ∃ m ∈ s.mark, ∃ k, m.runEnd < k ∧
      Splits (pattern.toList.drop (m.signAt + 1)) (text.toList.drop k)) :
    ∃ k, s.textAt < k ∧ Splits (pattern.toList.drop s.patternAt) (text.toList.drop k) := by
  obtain ⟨m, marked, k, later, split⟩ := longer
  have run := inside.runEnd_le m marked
  exact ⟨k + (s.textAt - m.runEnd), by omega, tracks.carries m marked k split⟩

private theorem Tracks.pass (tracks : s.Tracks pattern text) (inside : s.Inside pattern text)
    (percent : pattern[s.patternAt]? = some '%') :
    Tracks pattern text ⟨s.patternAt + 1, s.textAt, some ⟨s.patternAt, s.textAt⟩⟩ where
  decides := by
    have runs (j : Nat) : Splits (pattern.toList.drop s.patternAt) (text.toList.drop j) ↔
        ∃ k, j ≤ k ∧ Splits (pattern.toList.drop (s.patternAt + 1)) (text.toList.drop k) := by
      rw [drop_of_getElem? percent, splits_percent]
      simp only [List.drop_drop]
      constructor
      · rintro ⟨k, split⟩
        exact ⟨j + k, Nat.le_add_right j k, split⟩
      · rintro ⟨k, reached, split⟩
        exact ⟨k - j, by rwa [Nat.add_sub_cancel' reached]⟩
    have here : (∃ k, s.textAt ≤ k ∧
          Splits (pattern.toList.drop (s.patternAt + 1)) (text.toList.drop k)) ↔
        Splits (pattern.toList.drop (s.patternAt + 1)) (text.toList.drop s.textAt) ∨
          ∃ k, s.textAt < k ∧
            Splits (pattern.toList.drop (s.patternAt + 1)) (text.toList.drop k) := by
      constructor
      · rintro ⟨k, reached, split⟩
        rcases Nat.eq_or_lt_of_le reached with rfl | later
        · exact .inl split
        · exact .inr ⟨k, later, split⟩
      · rintro (split | ⟨k, later, split⟩)
        · exact ⟨s.textAt, Nat.le_refl _, split⟩
        · exact ⟨k, Nat.le_of_lt later, split⟩
    rw [tracks.decides]
    simp only [Option.mem_some_iff, exists_eq_left', ← here]
    constructor
    · rintro (split | longer)
      · exact (runs _).1 split
      · obtain ⟨j, later, split⟩ := tracks.further inside longer
        obtain ⟨k, reached, split⟩ := (runs j).1 split
        exact ⟨k, Nat.le_trans (Nat.le_of_lt later) reached, split⟩
    · exact fun split => .inl ((runs _).2 split)
  carries m marked k split := by
    cases marked
    simpa using split

private theorem Tracks.step (tracks : s.Tracks pattern text) (inside : s.Inside pattern text)
    {sign c : Char} (there : pattern[s.patternAt]? = some sign) (here : text[s.textAt]? = some c)
    (single : sign ≠ '%') (fits : sign = '_' ∨ sign = c) :
    Tracks pattern text ⟨s.patternAt + 1, s.textAt + 1, s.mark⟩ where
  decides := by
    have onward : Splits (pattern.toList.drop s.patternAt) (text.toList.drop s.textAt) ↔
        Splits (pattern.toList.drop (s.patternAt + 1)) (text.toList.drop (s.textAt + 1)) := by
      rw [drop_of_getElem? there, drop_of_getElem? here, splits_single single]
      constructor
      · rintro ⟨d, rest, same, -, split⟩
        cases same
        exact split
      · exact fun split => ⟨c, _, rfl, fits, split⟩
    rw [tracks.decides, onward]
  carries m marked k split := by
    have split := tracks.carries m marked k split
    rw [drop_of_getElem? there, splits_single single] at split
    obtain ⟨d, rest, same, -, split⟩ := split
    have run := inside.runEnd_le m marked
    have further : k + (s.textAt + 1 - m.runEnd) = k + (s.textAt - m.runEnd) + 1 := by omega
    have left : text.toList.drop (k + (s.textAt + 1 - m.runEnd)) = rest := by
      rw [further, ← List.drop_drop, same, List.drop_one, List.tail_cons]
    exact left ▸ split

private theorem not_splits_of_misfit {c : Char} (here : text[s.textAt]? = some c)
    (misfit : ∀ sign ∈ pattern[s.patternAt]?, sign ≠ '%' ∧ sign ≠ '_' ∧ sign ≠ c) :
    ¬ Splits (pattern.toList.drop s.patternAt) (text.toList.drop s.textAt) := by
  rw [drop_of_getElem? here]
  cases there : pattern[s.patternAt]? with
  | none => simp [drop_of_getElem?_none there, splits_nil]
  | some sign =>
    obtain ⟨single, noAny, different⟩ := misfit sign there
    rw [drop_of_getElem? there, splits_single single]
    rintro ⟨d, rest, same, fits, -⟩
    cases same
    exact fits.elim noAny different

private theorem Tracks.retry (tracks : s.Tracks pattern text) {m : Mark} (marked : s.mark = some m)
    (stuck : ¬ Splits (pattern.toList.drop s.patternAt) (text.toList.drop s.textAt)) :
    Tracks pattern text ⟨m.signAt + 1, m.runEnd + 1, some ⟨m.signAt, m.runEnd + 1⟩⟩ where
  decides := by
    rw [tracks.decides, marked]
    simp only [Option.mem_some_iff, exists_eq_left']
    constructor
    · rintro (split | ⟨k, later, split⟩)
      · exact absurd split stuck
      · rcases Nat.eq_or_lt_of_le (Nat.succ_le_of_lt later) with rfl | later
        · exact .inl split
        · exact .inr ⟨k, later, split⟩
    · rintro (split | ⟨k, later, split⟩)
      · exact .inr ⟨m.runEnd + 1, Nat.lt_succ_self _, split⟩
      · exact .inr ⟨k, Nat.lt_of_succ_lt later, split⟩
  carries m' marked' k split := by
    cases marked'
    simpa using split

private theorem Tracks.after_turn (tracks : s.Tracks pattern text) (inside : s.Inside pattern text)
    (turned : s.turn pattern text = .goOn next) : next.Tracks pattern text := by
  obtain ⟨c, here, cases⟩ := turn_eq_goOn turned
  rcases cases with ⟨percent, rfl⟩ | ⟨sign, there, single, fits, rfl⟩ | ⟨m, marked, misfit, rfl⟩
  · exact tracks.pass inside percent
  · exact tracks.step inside there here single fits
  · exact tracks.retry marked (not_splits_of_misfit here misfit)

private theorem Tracks.answer {isMatch : Bool} (tracks : s.Tracks pattern text)
    (inside : s.Inside pattern text) (turned : s.turn pattern text = .answer isMatch) :
    isMatch = true ↔ Splits pattern.toList text.toList := by
  unfold turn at turned
  split at turned
  next c here =>
    split at turned
    next => cases turned
    next other =>
      split at turned
      next => cases turned
      next misfit =>
        split at turned
        next => cases turned
        next unmarked =>
          cases turned
          have stuck := not_splits_of_misfit here fun sign there => by
            rw [there] at other misfit
            simp_all
          simp [tracks.decides, stuck, unmarked]
  next used =>
    have none (k : Nat) (past : s.textAt ≤ k) : text.toList.drop k = [] :=
      List.drop_eq_nil_of_le (Nat.le_trans (Array.getElem?_eq_none_iff.1 used) past)
    rw [restFrom?, if_pos inside.patternAt_le] at turned
    cases turned
    rw [tracks.decides, none _ (Nat.le_refl _), splits_empty]
    refine ⟨.inl, fun split => split.elim id fun longer => ?_⟩
    obtain ⟨k, later, split⟩ := tracks.further inside longer
    rwa [none k (Nat.le_of_lt later), splits_empty] at split

def Reaches (pattern text : Array Char) : Scan → Scan → Prop :=
  Relation.ReflTransGen fun s next => s.turn pattern text = .goOn next

private theorem Inside.after {last : Scan} (inside : s.Inside pattern text)
    (reached : Reaches pattern text s last) : last.Inside pattern text := by
  induction reached with
  | refl => exact inside
  | tail _ turned ih => exact ih.after_turn turned

private theorem Tracks.after {last : Scan} (tracks : s.Tracks pattern text)
    (inside : s.Inside pattern text) (reached : Reaches pattern text s last) :
    last.Tracks pattern text := by
  induction reached with
  | refl => exact tracks
  | tail before turned ih => exact ih.after_turn (inside.after before) turned

private theorem exists_answer (inside : s.Inside pattern text) :
    ∃ last, Reaches pattern text s last ∧
      last.turn pattern text = .answer (s.run pattern text inside) := by
  fun_induction run with
  | case1 s inside next turned ih =>
    obtain ⟨last, reached, answer⟩ := ih
    exact ⟨last, .head turned reached, answer⟩
  | case2 s inside isMatch turned => exact ⟨s, .refl, turned⟩

end Scan

theorem isMatch_iff (pattern text : String) :
    isMatch pattern text = true ↔ Splits pattern.toList text.toList := by
  have start : Scan.Inside pattern.toList.toArray text.toList.toArray {} := Scan.inside_start
  obtain ⟨last, reached, answer⟩ := Scan.exists_answer start
  exact (Scan.tracks_start.after start reached).answer (start.after reached) answer

/-- The scan of a text along a pattern comes to an end, on its way it never stands beyond the end of
the pattern, and it finds a match exactly when the text splits along the pattern. -/
theorem isMatch_splits (pattern text : String) :
    (∃ last, Scan.Reaches pattern.toList.toArray text.toList.toArray {} last ∧
        last.turn pattern.toList.toArray text.toList.toArray = .answer (isMatch pattern text)) ∧
      (∀ s, Scan.Reaches pattern.toList.toArray text.toList.toArray {} s →
        s.patternAt ≤ pattern.length ∧
          s.turn pattern.toList.toArray text.toList.toArray ≠ .beyond) ∧
      (isMatch pattern text = true ↔ Splits pattern.toList text.toList) := by
  have start : Scan.Inside pattern.toList.toArray text.toList.toArray {} := Scan.inside_start
  obtain ⟨last, reached, answer⟩ := Scan.exists_answer start
  refine ⟨⟨last, reached, answer⟩, fun s reached => ?_, isMatch_iff pattern text⟩
  have inside := start.after reached
  exact ⟨inside.patternAt_le, inside.turn_ne_beyond⟩

/-- The run of the second `%` is made longer, that of the first one is not. -/
example : isMatch "%a%b%" "xxaxxbxx" = true ∧ isMatch "%a%b%" "xxbxxaxx" = false := by cbv

end GuildSandbox.Pattern

/-!
Search patterns: `%` stands for any run of characters, `_` for one, all else for itself.

A scan goes through pattern and text together and remembers the last `%` that it has passed. Where
the next character does not fit, it takes up again behind that sign, with one character more in the
run that the sign stands for; earlier signs are never taken up again.
-/

set_option autoImplicit false
set_option relaxedAutoImplicit false

namespace GuildSandbox.Pattern

/-- A `%` that a scan has passed: its place in the pattern and the place in the text where its run
ends. -/
structure Mark where
  signAt : Nat
  runEnd : Nat
  deriving DecidableEq, Repr

/-- The places that a scan has reached in pattern and text, and the last `%` before them. -/
structure Scan where
  patternAt : Nat := 0
  textAt : Nat := 0
  mark : Option Mark := none
  deriving DecidableEq, Repr

inductive Turn where
  | goOn (next : Scan)
  | answer (isMatch : Bool)
  /-- The rest of the pattern was asked for beyond the end of the pattern. -/
  | beyond
  deriving DecidableEq, Repr

def restFrom? (pattern : Array Char) (start : Nat) : Option (List Char) :=
  if start ≤ pattern.size then some (pattern.toList.drop start) else none

namespace Scan

/-- One turn of a scan. Once the text is used up, the rest of the pattern may only hold `%`. -/
def turn (pattern text : Array Char) (s : Scan) : Turn :=
  match text[s.textAt]? with
  | some c =>
    if pattern[s.patternAt]? = some '%' then
      .goOn { patternAt := s.patternAt + 1, textAt := s.textAt
              mark := some { signAt := s.patternAt, runEnd := s.textAt } }
    else if pattern[s.patternAt]? = some '_' ∨ pattern[s.patternAt]? = some c then
      .goOn { s with patternAt := s.patternAt + 1, textAt := s.textAt + 1 }
    else
      match s.mark with
      | some m => .goOn { patternAt := m.signAt + 1, textAt := m.runEnd + 1
                          mark := some { m with runEnd := m.runEnd + 1 } }
      | none => .answer false
  | none =>
    match restFrom? pattern s.patternAt with
    | some rest => .answer (rest.all (· == '%'))
    | none => .beyond

variable {pattern text : Array Char} {s next : Scan}

/-- All that a turn which goes on can do: pass a `%`, match one character, or take up again behind
the last `%`. -/
theorem turn_eq_goOn (turned : s.turn pattern text = .goOn next) :
    ∃ c, text[s.textAt]? = some c ∧
      ((pattern[s.patternAt]? = some '%' ∧
          next = ⟨s.patternAt + 1, s.textAt, some ⟨s.patternAt, s.textAt⟩⟩) ∨
        (∃ sign, pattern[s.patternAt]? = some sign ∧ sign ≠ '%' ∧ (sign = '_' ∨ sign = c) ∧
          next = ⟨s.patternAt + 1, s.textAt + 1, s.mark⟩) ∨
        ∃ m, s.mark = some m ∧
          (∀ sign ∈ pattern[s.patternAt]?, sign ≠ '%' ∧ sign ≠ '_' ∧ sign ≠ c) ∧
          next = ⟨m.signAt + 1, m.runEnd + 1, some ⟨m.signAt, m.runEnd + 1⟩⟩) := by
  unfold turn at turned
  split at turned
  next c here =>
    refine ⟨c, here, ?_⟩
    split at turned
    next passed =>
      cases turned
      exact .inl ⟨passed, rfl⟩
    next other =>
      split at turned
      next fits =>
        cases turned
        refine .inr (.inl ?_)
        rcases fits with fits | fits <;> rw [fits] at other ⊢ <;> simp_all
      next misfit =>
        split at turned
        next m marked =>
          cases turned
          refine .inr (.inr ⟨m, marked, fun sign there => ?_, rfl⟩)
          rw [there] at other misfit
          simp_all
        next => cases turned
  next =>
    split at turned <;> cases turned

structure Inside (pattern text : Array Char) (s : Scan) : Prop where
  patternAt_le : s.patternAt ≤ pattern.size
  textAt_le : s.textAt ≤ text.size
  signAt_lt : ∀ m ∈ s.mark, m.signAt < s.patternAt
  runEnd_le : ∀ m ∈ s.mark, m.runEnd ≤ s.textAt

theorem inside_start : Inside pattern text {} where
  patternAt_le := Nat.zero_le _
  textAt_le := Nat.zero_le _
  signAt_lt _ marked := nomatch marked
  runEnd_le _ marked := nomatch marked

theorem Inside.after_turn (inside : s.Inside pattern text)
    (turned : s.turn pattern text = .goOn next) : next.Inside pattern text := by
  obtain ⟨c, here, cases⟩ := turn_eq_goOn turned
  obtain ⟨before, -⟩ := Array.getElem?_eq_some_iff.1 here
  rcases cases with ⟨passed, rfl⟩ | ⟨sign, there, -, -, rfl⟩ | ⟨m, marked, -, rfl⟩
  · obtain ⟨within, -⟩ := Array.getElem?_eq_some_iff.1 passed
    exact ⟨within, inside.textAt_le, by simp, by simp⟩
  · obtain ⟨within, -⟩ := Array.getElem?_eq_some_iff.1 there
    exact ⟨within, before, fun m marked => Nat.lt_succ_of_lt (inside.signAt_lt m marked),
      fun m marked => Nat.le_succ_of_le (inside.runEnd_le m marked)⟩
  · have sign := inside.signAt_lt m marked
    have run := inside.runEnd_le m marked
    have bound := inside.patternAt_le
    exact ⟨by simp only; omega, by simp only; omega, by simp, by simp⟩

theorem Inside.turn_ne_beyond (inside : s.Inside pattern text) : s.turn pattern text ≠ .beyond := by
  have within : restFrom? pattern s.patternAt = some (pattern.toList.drop s.patternAt) :=
    if_pos inside.patternAt_le
  simp only [turn, within]
  repeat' split
  all_goals simp

/-- How often the run of the last `%` can still be made longer; each `%` that is passed takes over
what the one before it has left. -/
def runsLeft (text : Array Char) (s : Scan) : Nat :=
  match s.mark with
  | none => text.size + 1
  | some m => text.size - m.runEnd

def ahead (pattern text : Array Char) (s : Scan) : Nat :=
  (pattern.size - s.patternAt) + (text.size - s.textAt)

private theorem Inside.after_turn_lt (inside : s.Inside pattern text)
    (turned : s.turn pattern text = .goOn next) :
    Prod.Lex (· < ·) (· < ·) (next.runsLeft text, next.ahead pattern text)
      (s.runsLeft text, s.ahead pattern text) := by
  obtain ⟨c, here, cases⟩ := turn_eq_goOn turned
  obtain ⟨before, -⟩ := Array.getElem?_eq_some_iff.1 here
  rcases cases with ⟨passed, rfl⟩ | ⟨sign, there, -, -, rfl⟩ | ⟨m, marked, -, rfl⟩
  · obtain ⟨within, -⟩ := Array.getElem?_eq_some_iff.1 passed
    have runs : text.size - s.textAt ≤ s.runsLeft text := by
      unfold runsLeft
      split
      · omega
      next m marked =>
        have run := inside.runEnd_le m marked
        omega
    rcases Nat.lt_or_eq_of_le runs with fewer | same
    · exact .left _ _ fewer
    · rw [← same]
      refine .right _ ?_
      simp only [ahead]
      omega
  · obtain ⟨within, -⟩ := Array.getElem?_eq_some_iff.1 there
    refine .right _ ?_
    simp only [ahead]
    omega
  · have run := inside.runEnd_le m marked
    refine .left _ _ ?_
    simp only [runsLeft, marked]
    omega

def run (pattern text : Array Char) (s : Scan) (inside : s.Inside pattern text) : Bool :=
  match turned : s.turn pattern text with
  | .goOn next => next.run pattern text (inside.after_turn turned)
  | .answer isMatch => isMatch
  | .beyond => absurd turned inside.turn_ne_beyond
termination_by (s.runsLeft text, s.ahead pattern text)
decreasing_by exact inside.after_turn_lt turned

end Scan

def isMatch (pattern text : String) : Bool :=
  Scan.run pattern.toList.toArray text.toList.toArray {} Scan.inside_start

end GuildSandbox.Pattern

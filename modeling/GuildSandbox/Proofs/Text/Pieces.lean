import GuildSandbox.Text.Blank

set_option autoImplicit false
set_option relaxedAutoImplicit false

namespace GuildSandbox.Text

theorem splitOn_append {sep : Char} {piece : List Char} (clean : sep ∉ piece) (rest : List Char) :
    splitOn sep (piece ++ sep :: rest) = piece :: splitOn sep rest := by
  induction piece with
  | nil => simp [splitOn]
  | cons c cs ih =>
    obtain ⟨other, clean⟩ := not_or.1 (mt List.mem_cons.2 clean)
    rw [List.cons_append, splitOn, if_neg (Ne.symm other), ih clean]

private theorem splitOn_ne_nil (sep : Char) (text : List Char) : splitOn sep text ≠ [] := by
  cases text with
  | nil => simp [splitOn]
  | cons c cs =>
    rw [splitOn]
    split
    · simp
    · split <;> simp

theorem splitOn_append_sep (sep : Char) (left right : List Char) :
    splitOn sep (left ++ sep :: right) = splitOn sep left ++ splitOn sep right := by
  induction left with
  | nil => simp [splitOn]
  | cons c cs ih =>
    by_cases here : c = sep
    · simp [splitOn, here, ih]
    · simp only [List.cons_append, splitOn, if_neg here, ih]
      cases pieces : splitOn sep cs with
      | nil => exact absurd pieces (splitOn_ne_nil sep cs)
      | cons piece rest => rfl

/-- Pieces with a separator after each of them are cut into these pieces and an empty one. -/
theorem splitOn_flatMap {sep : Char} {pieces : List (List Char)}
    (clean : ∀ piece ∈ pieces, sep ∉ piece) :
    splitOn sep (pieces.flatMap fun piece => piece ++ [sep]) = pieces ++ [[]] := by
  induction pieces with
  | nil => rfl
  | cons piece rest ih =>
    have others := ih fun piece member => clean piece (List.mem_cons_of_mem _ member)
    rw [List.flatMap_cons, List.append_assoc, List.singleton_append,
      splitOn_append (clean piece List.mem_cons_self), others, List.cons_append]

theorem splitOn_of_notMem {sep : Char} {text : List Char} (clean : sep ∉ text) :
    splitOn sep text = [text] := by
  induction text with
  | nil => rfl
  | cons c cs ih =>
    obtain ⟨other, clean⟩ := not_or.1 (mt List.mem_cons.2 clean)
    rw [splitOn, if_neg (Ne.symm other), ih clean]

theorem trimStart_cons {c : Char} (visible : isBlank c = false) (cs : List Char) :
    trimStart (c :: cs) = c :: cs := by
  simp [trimStart, visible]

theorem trim_of_visible_ends {first last : Char} (visible : isBlank first = false)
    (visibleToo : isBlank last = false) (inner : List Char) :
    trim (first :: (inner ++ [last])) = first :: (inner ++ [last]) := by
  have back : (first :: (inner ++ [last])).reverse = last :: (inner.reverse ++ [first]) := by simp
  rw [trim, trimStart_cons visible, back, trimStart_cons visibleToo]
  simp

theorem trim_append_blank {c : Char} (blank : isBlank c = true) (cs : List Char) :
    trim (cs ++ [c]) = trim cs := by
  have front : trimStart (cs ++ [c]) = trimStart cs ++ [c] ∨
      trimStart (cs ++ [c]) = [] ∧ trimStart cs = [] := by
    simp only [trimStart, List.dropWhile_append]
    split
    next nothing =>
      exact .inr ⟨by simp [blank], List.isEmpty_iff.1 nothing⟩
    next => exact .inl rfl
  obtain front | ⟨front, nothing⟩ := front
  · have back : trimStart (c :: (trimStart cs).reverse) = trimStart (trimStart cs).reverse := by
      rw [trimStart, List.dropWhile_cons_of_pos blank]
      rfl
    rw [trim, front, List.reverse_append, List.reverse_singleton, List.singleton_append, back]
    rfl
  · rw [trim, trim, front, nothing]

end GuildSandbox.Text

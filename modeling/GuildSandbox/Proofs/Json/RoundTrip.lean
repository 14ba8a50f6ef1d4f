import Mathlib.Data.List.DropRight
import GuildSandbox.Json.Skip
import GuildSandbox.Proofs.Json.Numbers

set_option autoImplicit false
set_option relaxedAutoImplicit false

namespace GuildSandbox

namespace Json

theorem height_le_heightItems {item : Json} {items : List Json} (member : item ∈ items) :
    height item ≤ heightItems items := by
  induction items with
  | nil => simp at member
  | cons first rest ih =>
    simp only [heightItems]
    rcases List.mem_cons.1 member with rfl | member
    · exact Nat.le_max_left _ _
    · exact Nat.le_trans (ih member) (Nat.le_max_right _ _)

theorem height_le_heightFields {field : String × Json} {fields : List (String × Json)}
    (member : field ∈ fields) : height field.2 ≤ heightFields fields := by
  induction fields with
  | nil => simp at member
  | cons first rest ih =>
    simp only [heightFields]
    rcases List.mem_cons.1 member with rfl | member
    · exact Nat.le_max_left _ _
    · exact Nat.le_trans (ih member) (Nat.le_max_right _ _)

private theorem skipSpace_append_of_ne_nil {cs rest : List Char} (text : skipSpace cs ≠ []) :
    skipSpace (cs ++ rest) = skipSpace cs ++ rest := by
  rw [skipSpace, List.dropWhile_append, if_neg (by simpa [skipSpace] using text), skipSpace]

private theorem readValue_skipSpace (depth : Nat) (cs : List Char) :
    readValue depth (skipSpace cs) = readValue depth cs := by
  have twice : skipSpace (skipSpace cs) = skipSpace cs := List.dropWhile_idempotent isSpace cs
  unfold readValue
  rw [twice]

private theorem exists_first_of_render (j : Json) :
    ∃ c cs, skipSpace (render j) = c :: cs ∧ c ≠ ']' := by
  cases j with
  | null => exact ⟨'n', _, rfl, by decide⟩
  | bool b => cases b <;> exact ⟨_, _, rfl, by decide⟩
  | num n => exact exists_first_of_renderNumber n
  | str s => exact ⟨'"', _, rfl, by decide⟩
  | arr items => cases items <;> exact ⟨'[', _, rfl, by decide⟩
  | obj fields => rcases fields with _ | ⟨⟨name, value⟩, rest⟩ <;> exact ⟨'\x7b', _, rfl, by decide⟩

private def ReadsAll (value : List Char → Option (Json × List Char)) (trees : List Json) : Prop :=
  ∀ j ∈ trees, ∀ tail, EndsNumber tail → value (render j ++ tail) = some (j, tail)

private theorem endsNumber_cons {c : Char} (tail : List Char)
    (stop : c = ',' ∨ c = ']' ∨ c = '\x7d') : EndsNumber (c :: tail) := by
  intro d head
  obtain rfl : c = d := by simpa using head
  rcases stop with rfl | rfl | rfl <;> decide

private theorem readItems_render {value : List Char → Option (Json × List Char)} {item : Json}
    {rest : List Json} (reads : ReadsAll value (item :: rest)) (acc : List Json) (tail : List Char)
    {fuel : Nat} (enough : rest.length < fuel) :
    readItems value fuel acc (render item ++ (renderItems rest ++ tail)) =
      some (acc.reverse ++ item :: rest, tail) := by
  induction rest generalizing item acc fuel with
  | nil =>
    obtain ⟨fuel, rfl⟩ := Nat.exists_eq_add_one_of_ne_zero (Nat.ne_zero_of_lt enough)
    have read := reads item List.mem_cons_self (']' :: tail)
      (endsNumber_cons tail (.inr (.inl rfl)))
    have close : skipSpace (']' :: tail) = ']' :: tail := rfl
    simp [readItems, renderItems, read, close]
  | cons next rest ih =>
    obtain ⟨fuel, rfl⟩ := Nat.exists_eq_add_one_of_ne_zero (Nat.ne_zero_of_lt enough)
    have read := reads item List.mem_cons_self
      (',' :: (render next ++ (renderItems rest ++ tail))) (endsNumber_cons _ (.inl rfl))
    have comma : skipSpace (',' :: (render next ++ (renderItems rest ++ tail))) =
      ',' :: (render next ++ (renderItems rest ++ tail)) := rfl
    have others : ReadsAll value (next :: rest) := fun j member =>
      reads j (List.mem_cons_of_mem item member)
    have step := ih others (item :: acc) (Nat.lt_of_succ_lt_succ enough)
    simp [readItems, renderItems, read, comma, step]

private theorem readFields_render {value : List Char → Option (Json × List Char)} {name : String}
    {item : Json} {rest : List (String × Json)} (reads : ReadsAll value (item :: rest.map Prod.snd))
    (acc : List (String × Json)) (tail : List Char) {fuel : Nat} (enough : rest.length < fuel) :
    readFields value fuel acc
        (renderString name ++ ':' :: (render item ++ (renderFields rest ++ tail))) =
      some (acc.reverse ++ (name, item) :: rest, tail) := by
  induction rest generalizing name item acc fuel with
  | nil =>
    obtain ⟨fuel, rfl⟩ := Nat.exists_eq_add_one_of_ne_zero (Nat.ne_zero_of_lt enough)
    have read := reads item List.mem_cons_self ('\x7d' :: tail)
      (endsNumber_cons tail (.inr (.inr rfl)))
    have close : skipSpace ('\x7d' :: tail) = '\x7d' :: tail := rfl
    obtain ⟨cs, quoted, named⟩ :=
      readString_renderString name (':' :: (render item ++ '\x7d' :: tail))
    have here : skipSpace ('"' :: cs) = '"' :: cs := rfl
    have colon : skipSpace (':' :: (render item ++ '\x7d' :: tail)) =
      ':' :: (render item ++ '\x7d' :: tail) := rfl
    simp [readFields, renderFields, quoted, here, named, colon, read, close]
  | cons next rest ih =>
    obtain ⟨fuel, rfl⟩ := Nat.exists_eq_add_one_of_ne_zero (Nat.ne_zero_of_lt enough)
    obtain ⟨nextName, nextItem⟩ := next
    obtain ⟨more, text⟩ : ∃ more, more =
      renderString nextName ++ ':' :: (render nextItem ++ (renderFields rest ++ tail)) := ⟨_, rfl⟩
    have read := reads item List.mem_cons_self (',' :: more) (endsNumber_cons _ (.inl rfl))
    have comma : skipSpace (',' :: more) = ',' :: more := rfl
    have others : ReadsAll value (nextItem :: rest.map Prod.snd) := fun j member =>
      reads j (List.mem_cons_of_mem item member)
    have step : readFields value fuel ((name, item) :: acc) more =
        some (((name, item) :: acc).reverse ++ (nextName, nextItem) :: rest, tail) := by
      rw [text]
      exact ih others _ (Nat.lt_of_succ_lt_succ enough)
    obtain ⟨cs, quoted, named⟩ := readString_renderString name (':' :: (render item ++ ',' :: more))
    have here : skipSpace ('"' :: cs) = '"' :: cs := rfl
    have colon : skipSpace (':' :: (render item ++ ',' :: more)) =
      ':' :: (render item ++ ',' :: more) := rfl
    have following : renderFields ((nextName, nextItem) :: rest) ++ tail = ',' :: more := by
      simp [renderFields, text]
    simp [readFields, following, quoted, here, named, colon, read, comma, step]

private theorem readItems_skipSpace (depth fuel : Nat) (acc : List Json) (cs : List Char) :
    readItems (readValue depth) fuel acc (skipSpace cs) =
      readItems (readValue depth) fuel acc cs := by
  cases fuel with
  | zero => rfl
  | succ fuel => rw [readItems, readItems, readValue_skipSpace]

private theorem length_le_renderItems (items : List Json) :
    items.length ≤ (renderItems items).length := by
  induction items with
  | nil => simp
  | cons item rest ih => simp only [renderItems, List.length_cons, List.length_append]; omega

private theorem length_le_renderFields (fields : List (String × Json)) :
    fields.length ≤ (renderFields fields).length := by
  induction fields with
  | nil => simp
  | cons field rest ih => simp only [renderFields, List.length_cons, List.length_append]; omega

private theorem readValue_items (inner : Nat) {c : Char} {cs cs' : List Char}
    (text : skipSpace cs = c :: cs') (more : c ≠ ']') :
    readValue (inner + 1) ('[' :: cs) =
      (readItems (readValue inner) (cs'.length + 2) [] cs).map
        fun (items, rest) => (.arr items, rest) := by
  have here : skipSpace ('[' :: cs) = '[' :: cs := rfl
  rw [← readItems_skipSpace]
  unfold readValue
  simp [here, text, more]

private theorem readValue_fields (inner : Nat) (cs : List Char) :
    readValue (inner + 1) ('\x7b' :: '"' :: cs) =
      (readFields (readValue inner) (cs.length + 2) [] ('"' :: cs)).map
        fun (fields, rest) => (.obj fields, rest) := by
  have here : skipSpace ('\x7b' :: '"' :: cs) = '\x7b' :: '"' :: cs := rfl
  have name : skipSpace ('"' :: cs) = '"' :: cs := rfl
  unfold readValue
  simp [here, name]

/-- A tree reads back, whatever follows it, when the reader may nest as deep as the tree does. -/
private theorem readValue_render (depth : Nat) {j : Json} (fits : j.height ≤ depth)
    {tail : List Char}
    (ends : EndsNumber tail) : readValue depth (render j ++ tail) = some (j, tail) := by
  induction depth generalizing j tail with
  | zero => cases j <;> simp [height] at fits
  | succ inner ih =>
    cases j with
    | null => rfl
    | bool b => cases b <;> rfl
    | num n => exact readValue_renderNumber n _ ends
    | str s =>
      obtain ⟨cs, quoted, read⟩ := readString_renderString s tail
      rw [render, quoted, readValue_string, read]
      rfl
    | arr items =>
      cases items with
      | nil => rfl
      | cons item rest =>
        have reads : ReadsAll (readValue inner) (item :: rest) := fun j member tail ends =>
          ih (Nat.le_trans (height_le_heightItems member) (Nat.le_of_succ_le_succ fits)) ends
        obtain ⟨c, cs, first, more⟩ := exists_first_of_render item
        have text : skipSpace (render item ++ (renderItems rest ++ tail)) =
            c :: (cs ++ (renderItems rest ++ tail)) := by
          rw [skipSpace_append_of_ne_nil (by simp [first]), first, List.cons_append]
        have length := length_le_renderItems rest
        rw [render, List.cons_append, List.append_assoc, readValue_items inner text more,
          readItems_render reads [] tail (by simp only [List.length_append]; omega)]
        rfl
    | obj fields =>
      rcases fields with _ | ⟨⟨name, item⟩, rest⟩
      · rfl
      · have reads : ReadsAll (readValue inner) (item :: rest.map Prod.snd) := by
          intro j member tail ends
          obtain ⟨field, here, rfl⟩ : ∃ field ∈ (name, item) :: rest, field.2 = j :=
            List.mem_map.1 member
          exact ih (Nat.le_trans (height_le_heightFields here) (Nat.le_of_succ_le_succ fits)) ends
        obtain ⟨cs, quoted, -⟩ :=
          readString_renderString name (':' :: (render item ++ (renderFields rest ++ tail)))
        have length := length_le_renderFields rest
        have enough : rest.length < cs.length + 2 := by
          have same := congrArg List.length quoted
          simp only [List.length_append, List.length_cons] at same
          omega
        have fields : readFields (readValue inner) (cs.length + 2) [] ('"' :: cs) =
            some ([] ++ (name, item) :: rest, tail) := by
          rw [← quoted]
          exact readFields_render reads [] tail enough
        simp only [render, List.cons_append, List.append_assoc, quoted, readValue_fields, fields]
        rfl

theorem parse?_compact {j : Json} (fits : j.height ≤ maxNesting) : parse? j.compact = some j := by
  have read := readValue_render maxNesting fits endsNumber_nil
  rw [List.append_nil] at read
  rw [parse?, compact, String.toList_ofList, read]
  rfl

private theorem mem_of_readFields {value : List Char → Option (Json × List Char)} {fuel : Nat}
    {acc fields : List (String × Json)} {cs rest : List Char}
    (read : readFields value fuel acc cs = some (fields, rest)) {field : String × Json}
    (member : field ∈ acc) : field ∈ fields := by
  induction fuel generalizing acc cs with
  | zero => cases read
  | succ fuel ih =>
    simp only [readFields] at read
    split at read
    next =>
      obtain ⟨⟨name, after⟩, -, read⟩ := Option.bind_eq_some_iff.1 read
      simp only at read
      split at read
      next =>
        obtain ⟨⟨item, after⟩, -, read⟩ := Option.bind_eq_some_iff.1 read
        simp only at read
        split at read
        · exact ih read (List.mem_cons_of_mem _ member)
        · cases read
          exact List.mem_reverse.2 (List.mem_cons_of_mem _ member)
        · cases read
      next => cases read
    next => cases read

private theorem readKnown_of_readFields {names : List String} {fuel : Nat}
    {acc fields : List (String × Json)} {cs rest : List Char}
    (read : readFields (readValue (maxNesting - 1)) fuel acc cs = some (fields, rest))
    (known : ∀ field ∈ fields, names.contains field.1 = true) :
    readKnown names fuel acc cs = some (fields, rest) := by
  induction fuel generalizing acc cs with
  | zero => cases read
  | succ fuel ih =>
    simp only [readFields] at read
    split at read
    next opened =>
      obtain ⟨⟨name, after⟩, named, read⟩ := Option.bind_eq_some_iff.1 read
      simp only at read
      split at read
      next separated =>
        obtain ⟨⟨item, after⟩, valued, read⟩ := Option.bind_eq_some_iff.1 read
        simp only at read
        have here : names.contains name = true := by
          split at read
          · exact known _ (mem_of_readFields read List.mem_cons_self)
          · cases read
            exact known (name, item) (List.mem_reverse.2 List.mem_cons_self)
          · cases read
        simp only [readKnown, opened, named, separated, here, if_true, valued, Option.map_some,
          Option.bind_eq_bind, Option.bind_some]
        split at read
        next comma => simpa only [comma] using ih read
        next brace => simpa only [brace] using read
        next => cases read
      next => cases read
    next => cases read

theorem parseRecord?_of_parse? {names : List String} {text : String}
    {fields : List (String × Json)} (read : parse? text = some (.obj fields))
    (known : ∀ field ∈ fields, names.contains field.1 = true) :
    parseRecord? names text = some (.obj fields) := by
  unfold parseRecord?
  split
  next inside opened =>
    obtain ⟨⟨value, rest⟩, valued, ended⟩ := Option.bind_eq_some_iff.1 read
    rw [show maxNesting = maxNesting - 1 + 1 from rfl, readValue, opened] at valued
    simp only at valued
    split at valued
    next closed =>
      cases valued
      simpa only [closed] using ended
    next more =>
      obtain ⟨⟨found, after⟩, fielded, same⟩ := Option.map_eq_some_iff.1 valued
      cases same
      simp only at ended
      split at ended
      next blank =>
        cases ended
        simp [readKnown_of_readFields fielded known, List.isEmpty_iff.1 blank]
      next => cases ended
  next => exact read

end Json

end GuildSandbox

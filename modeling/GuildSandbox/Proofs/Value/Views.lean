import GuildSandbox.Value.Plain

set_option autoImplicit false
set_option relaxedAutoImplicit false

namespace GuildSandbox

theorem exists_ok_of_bind {ε α β : Type} {x : Except ε α} {f : α → Except ε β} {b : β}
    (ok : (x >>= f) = .ok b) : ∃ a, x = .ok a ∧ f a = .ok b := by
  cases x with
  | error e => cases ok
  | ok a => exact ⟨a, rfl, ok⟩

theorem exists_ok_of_map {ε α β : Type} {x : Except ε α} {f : α → β} {b : β}
    (ok : x.map f = .ok b) : ∃ a, x = .ok a ∧ f a = b := by
  cases x with
  | error e => cases ok
  | ok a => exact ⟨a, rfl, Except.ok.inj ok⟩

theorem eq_ok_of_mapError {ε ε' α : Type} {x : Except ε α} {f : ε → ε'} {a : α}
    (ok : x.mapError f = .ok a) : x = .ok a := by
  cases x with
  | error e => cases ok
  | ok b => exact congrArg Except.ok (Except.ok.inj ok)

namespace Value

mutual

def views : Value → List View
  | .view v => [v]
  | .array items => viewsInItems items
  | .map entries => viewsInEntries entries
  | _ => []

def viewsInItems : List Value → List View
  | [] => []
  | item :: rest => views item ++ viewsInItems rest

def viewsInEntries : List (String × Value) → List View
  | [] => []
  | (_, item) :: rest => views item ++ viewsInEntries rest

end

private theorem mem_viewsInItems {v : View} {items : List Value} :
    v ∈ viewsInItems items ↔ ∃ item ∈ items, v ∈ item.views := by
  induction items with
  | nil => simp [viewsInItems]
  | cons item rest ih => simp [viewsInItems, ih]

private theorem mem_viewsInEntries {v : View} {entries : List (String × Value)} :
    v ∈ viewsInEntries entries ↔ ∃ entry ∈ entries, v ∈ entry.2.views := by
  induction entries with
  | nil => simp [viewsInEntries]
  | cons entry rest ih => simp [viewsInEntries, ih]

def HasNoView (v : Value) : Prop := v.views = []

theorem hasNoView_ofText? (s : Option String) : (ofText? s).HasNoView := by
  cases s with
  | none => rfl
  | some s => rfl

def EveryView (P : View → Prop) (value : Value) : Prop := ∀ v ∈ value.views, P v

section

variable {P : View → Prop} {α : Type}

theorem HasNoView.everyView {value : Value} (none : value.HasNoView) : value.EveryView P := by
  intro v shown
  rw [none] at shown
  cases shown

theorem everyView_view {v : View} (holds : P v) : (view v).EveryView P :=
  fun _ shown => List.mem_singleton.1 shown ▸ holds

theorem everyView_found {found : Option α} {f : α → View}
    (holds : ∀ a, found = some a → P (f a)) : (ofView? (found.map f)).EveryView P := by
  cases found with
  | none => exact HasNoView.everyView rfl
  | some a => exact everyView_view (holds a rfl)

theorem everyView_array {all : List α} {f : α → View} (holds : ∀ a ∈ all, P (f a)) :
    (array (all.map fun a => .view (f a))).EveryView P := by
  intro v shown
  obtain ⟨item, member, shown⟩ := mem_viewsInItems.1 shown
  obtain ⟨a, here, rfl⟩ := List.mem_map.1 member
  exact everyView_view (holds a here) v shown

end

theorem hasNoView_array {items : List Value} (none : ∀ item ∈ items, item.HasNoView) :
    (array items).HasNoView := by
  refine List.eq_nil_iff_forall_not_mem.2 fun v shown => ?_
  obtain ⟨item, member, shown⟩ := mem_viewsInItems.1 shown
  rw [none item member] at shown
  cases shown

theorem hasNoView_ofPairs {entries : List (String × Value)}
    (none : ∀ entry ∈ entries, entry.2.HasNoView) : (map (Dict.ofPairs entries)).HasNoView := by
  refine List.eq_nil_iff_forall_not_mem.2 fun v shown => ?_
  obtain ⟨entry, member, shown⟩ := mem_viewsInEntries.1 shown
  rw [none entry (Dict.mem_of_mem_ofPairs member)] at shown
  cases shown

private theorem decodeItems_hasNoView {nested : Json → Except ValueError Value}
    (none : ∀ j v, nested j = .ok v → v.HasNoView) {trees : List Json} {items : List Value}
    (decoded : decodeItems nested trees = .ok items) : ∀ item ∈ items, item.HasNoView := by
  induction trees generalizing items with
  | nil =>
    cases decoded
    exact fun item member => absurd member List.not_mem_nil
  | cons tree rest ih =>
    obtain ⟨first, here, decoded⟩ := exists_ok_of_bind decoded
    obtain ⟨others, there, decoded⟩ := exists_ok_of_bind decoded
    cases decoded
    exact List.forall_mem_cons.2 ⟨none tree first here, ih there⟩

private theorem decodeFields_hasNoView {nested : Json → Except ValueError Value}
    (none : ∀ j v, nested j = .ok v → v.HasNoView) {fields : List (String × Json)}
    {entries : List (String × Value)} (decoded : decodeFields nested fields = .ok entries) :
    ∀ entry ∈ entries, entry.2.HasNoView := by
  induction fields generalizing entries with
  | nil =>
    cases decoded
    exact fun entry member => absurd member List.not_mem_nil
  | cons field rest ih =>
    obtain ⟨first, here, decoded⟩ := exists_ok_of_bind decoded
    obtain ⟨others, there, decoded⟩ := exists_ok_of_bind decoded
    cases decoded
    exact List.forall_mem_cons.2 ⟨none field.2 first here, ih there⟩

private theorem decodeData_hasNoView {nested : Json → Except ValueError Value}
    (none : ∀ j v, nested j = .ok v → v.HasNoView) {t : TaggedValue} {v : Value}
    (decoded : decodeData nested t = .ok v) : v.HasNoView := by
  unfold decodeData at decoded
  split at decoded
  case h_1 => cases decoded; rfl
  case h_2 | h_3 | h_4 | h_5 =>
    obtain ⟨x, -, rfl⟩ := exists_ok_of_map decoded
    rfl
  case h_6 =>
    split at decoded
    · obtain ⟨items, parts, rfl⟩ := exists_ok_of_map decoded
      exact hasNoView_array (decodeItems_hasNoView none parts)
    · cases decoded
  case h_7 =>
    split at decoded
    · obtain ⟨entries, parts, rfl⟩ := exists_ok_of_map decoded
      exact hasNoView_ofPairs (decodeFields_hasNoView none parts)
    · cases decoded
  case h_8 => cases decoded

theorem ofJsonText_hasNoView {text : String} {v : Value} (read : ofJsonText text = .ok v) :
    v.HasNoView := by
  have within (levels : Nat) (j : Json) (v : Value) (decoded : decodeWithin levels j = .ok v) :
      v.HasNoView := by
    induction levels generalizing j v with
    | zero => cases decoded
    | succ levels ih =>
      rw [decodeWithin] at decoded
      split at decoded
      · exact decodeData_hasNoView (fun j v => ih j v) decoded
      · cases decoded
  unfold ofJsonText at read
  split at read
  · exact within _ _ _ read
  · cases read

mutual

private theorem ofPlainAt_hasNoView :
    (j : Json) → ∀ depth v, ofPlainAt depth j = .ok v → v.HasNoView
  | .null, depth, v, read => by
    rw [ofPlainAt] at read
    split at read <;> cases read
    rfl
  | .bool b, depth, v, read => by
    rw [ofPlainAt] at read
    split at read <;> cases read
    rfl
  | .num n, depth, v, read => by
    rw [ofPlainAt] at read
    split at read <;> cases read
    unfold ofNumber
    split <;> rfl
  | .str s, depth, v, read => by
    rw [ofPlainAt] at read
    split at read <;> cases read
    rfl
  | .arr items, depth, v, read => by
    rw [ofPlainAt] at read
    split at read
    · cases read
    · obtain ⟨values, parts, rfl⟩ := exists_ok_of_map read
      exact hasNoView_array (ofPlainItems_hasNoView items _ _ parts)
  | .obj fields, depth, v, read => by
    rw [ofPlainAt] at read
    split at read
    · cases read
    · obtain ⟨entries, parts, rfl⟩ := exists_ok_of_map read
      exact hasNoView_ofPairs (ofPlainFields_hasNoView fields _ _ parts)

private theorem ofPlainItems_hasNoView : (items : List Json) → ∀ depth values,
    ofPlainItems depth items = .ok values → ∀ v ∈ values, v.HasNoView
  | [], depth, values, read => by
    cases read
    exact fun v member => absurd member List.not_mem_nil
  | item :: rest, depth, values, read => by
    rw [ofPlainItems] at read
    obtain ⟨first, here, read⟩ := exists_ok_of_bind read
    obtain ⟨others, there, read⟩ := exists_ok_of_bind read
    cases read
    exact List.forall_mem_cons.2
      ⟨ofPlainAt_hasNoView item _ _ here, ofPlainItems_hasNoView rest _ _ there⟩

private theorem ofPlainFields_hasNoView : (fields : List (String × Json)) → ∀ depth entries,
    ofPlainFields depth fields = .ok entries → ∀ entry ∈ entries, entry.2.HasNoView
  | [], depth, entries, read => by
    cases read
    exact fun entry member => absurd member List.not_mem_nil
  | (key, item) :: rest, depth, entries, read => by
    rw [ofPlainFields] at read
    obtain ⟨first, here, read⟩ := exists_ok_of_bind read
    obtain ⟨others, there, read⟩ := exists_ok_of_bind read
    cases read
    exact List.forall_mem_cons.2
      ⟨ofPlainAt_hasNoView item _ _ here, ofPlainFields_hasNoView rest _ _ there⟩

end

theorem ofPlainJson_hasNoView {j : Json} {v : Value} (read : ofPlainJson j = .ok v) :
    v.HasNoView := ofPlainAt_hasNoView j 0 v read

end Value

end GuildSandbox

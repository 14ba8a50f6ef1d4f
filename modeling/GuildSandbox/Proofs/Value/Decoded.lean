import Mathlib.Data.Nat.SuccPred
import GuildSandbox.Proofs.Number.Sum
import GuildSandbox.Proofs.Value.Encodings

/-!
Decoded values can be stored.

Decoding accepts more than encoding writes: records in other spellings, whole floats for integers,
integers for floats, and any data for a unit. What it makes of them has a JSON form and nests no
deeper than allowed, so it encodes again, and from then on decoding and encoding change nothing. The
depth at which decoding gives up is the one at which encoding does.
-/

set_option autoImplicit false
set_option relaxedAutoImplicit false

namespace GuildSandbox

theorem JsonNumber.isFinite_toFloat : (n : JsonNumber) → Number.Binary64.isFinite n.toFloat = true
  | .int _ fits =>
    (Number.Binary64.isFinite_iff _).2
      (Nat.le_trans (Number.Binary64.exponentBits_ofInt_le (by omega)) (by decide))
  | .float _ finite => finite

/-- The records inside a record: the items of a list, the fields of a dictionary. -/
def TaggedValue.parts (t : TaggedValue) : List Json :=
  match t.tag, t.data with
  | "list", .arr items => items
  | "dict", .obj fields => fields.map Prod.snd
  | _, _ => []

/-- The node lies in the tree, and so many records of lists and dictionaries lie around it. -/
inductive Json.Encloses : Json → Nat → Json → Prop
  | self (j : Json) : Encloses j 0 j
  | part {j node part : Json} {t : TaggedValue} {n : Nat} : TaggedValue.ofJson? j = some t →
      part ∈ t.parts → Encloses part n node → Encloses j (n + 1) node

namespace Value

theorem storableItems_iff {items : List Value} :
    StorableItems items ↔ ∀ item ∈ items, item.Storable := by
  induction items with
  | nil => simp [StorableItems]
  | cons item rest ih => simp [StorableItems, ih]

theorem storableEntries_iff {entries : List (String × Value)} :
    StorableEntries entries ↔ ∀ entry ∈ entries, entry.2.Storable := by
  induction entries with
  | nil => simp [StorableEntries]
  | cons entry rest ih => simp [StorableEntries, ih]

theorem nestingItems_le_iff {items : List Value} {n : Nat} :
    nestingItems items ≤ n ↔ ∀ item ∈ items, item.nesting < n := by
  induction items with
  | nil => simp [nestingItems]
  | cons item rest ih => simp [nestingItems, ih]

theorem nestingEntries_le_iff {entries : List (String × Value)} {n : Nat} :
    nestingEntries entries ≤ n ↔ ∀ entry ∈ entries, entry.2.nesting < n := by
  induction entries with
  | nil => simp [nestingEntries]
  | cons entry rest ih => simp [nestingEntries, ih]

section

variable {nested : Json → Except ValueError Value} {trees : List Json} {t : TaggedValue}
  {e : ValueError}

private theorem decodeFields_eq (fields : List (String × Json)) : decodeFields nested fields =
    (decodeItems nested (fields.map Prod.snd)).map fun values =>
      (fields.map Prod.fst).zip values := by
  induction fields with
  | nil => rfl
  | cons field rest ih =>
    rw [decodeFields, ih]
    simp only [List.map_cons, decodeItems]
    cases nested field.2 with
    | error e => rfl
    | ok first => cases decodeItems nested (rest.map Prod.snd) <;> rfl

private theorem forall_of_decodeItems {items : List Value}
    (decoded : decodeItems nested trees = .ok items) :
    (∀ tree ∈ trees, ∃ item, nested tree = .ok item) ∧
      ∀ item ∈ items, ∃ tree, nested tree = .ok item := by
  induction trees generalizing items with
  | nil =>
    cases decoded
    exact ⟨List.forall_mem_nil _, List.forall_mem_nil _⟩
  | cons tree rest ih =>
    obtain ⟨first, here, decoded⟩ := exists_ok_of_bind decoded
    obtain ⟨others, there, decoded⟩ := exists_ok_of_bind decoded
    cases decoded
    obtain ⟨each, made⟩ := ih there
    exact ⟨List.forall_mem_cons.2 ⟨⟨first, here⟩, each⟩, List.forall_mem_cons.2 ⟨⟨tree, here⟩, made⟩⟩

private theorem exists_error_of_decodeItems (failed : decodeItems nested trees = .error e) :
    ∃ tree ∈ trees, nested tree = .error e := by
  induction trees with
  | nil => cases failed
  | cons tree rest ih =>
    rw [decodeItems] at failed
    cases here : nested tree with
    | error e' =>
      rw [here] at failed
      cases failed
      exact ⟨tree, List.mem_cons_self, here⟩
    | ok first =>
      cases there : decodeItems nested rest with
      | error e' =>
        rw [here, there] at failed
        cases failed
        obtain ⟨tree', member, failed⟩ := ih there
        exact ⟨tree', List.mem_cons_of_mem _ member, failed⟩
      | ok others =>
        rw [here, there] at failed
        cases failed

/-- The value is made of values that the records in a record decode to: it is storable when they are,
and nests one level deeper than they do. -/
private structure MadeOf (nested : Json → Except ValueError Value) (t : TaggedValue) (v : Value)
    (values : List Value) : Prop where
  each : ∀ part ∈ t.parts, ∃ value, nested part = .ok value
  made : ∀ value ∈ values, ∃ part, nested part = .ok value
  storable : (∀ value ∈ values, value.Storable) → v.Storable
  nesting : ∀ n, (∀ value ∈ values, value.nesting < n) → v.nesting ≤ n

private theorem MadeOf.scalar {v : Value} (alone : t.parts = []) (storable : v.Storable)
    (flat : v.nesting = 0) : MadeOf nested t v [] where
  each := by simp [alone]
  made := by simp
  storable _ := storable
  nesting n _ := by omega

private theorem exists_ok_of_orFail {α : Type} {found : Option α} {f : α → Value} {v : Value}
    (ok : (orFail e found).map f = .ok v) : ∃ a, found = some a ∧ f a = v := by
  cases found with
  | none => cases ok
  | some a => exact ⟨a, rfl, Except.ok.inj ok⟩

private theorem exists_madeOf {v : Value} (decoded : decodeData nested t = .ok v) :
    ∃ values, MadeOf nested t v values := by
  unfold decodeData at decoded
  split at decoded
  case h_1 tagged =>
    cases decoded
    exact ⟨[], .scalar (by simp [TaggedValue.parts, tagged]) trivial rfl⟩
  case h_2 tagged | h_3 tagged | h_4 tagged =>
    obtain ⟨x, -, rfl⟩ := exists_ok_of_orFail decoded
    exact ⟨[], .scalar (by simp [TaggedValue.parts, tagged]) trivial rfl⟩
  case h_5 tagged =>
    obtain ⟨f, number, rfl⟩ := exists_ok_of_orFail decoded
    refine ⟨[], .scalar (by simp [TaggedValue.parts, tagged]) ?_ rfl⟩
    unfold Json.toFloat? at number
    split at number <;> cases number
    exact JsonNumber.isFinite_toFloat _
  case h_6 tagged =>
    split at decoded
    next items data =>
      obtain ⟨values, parts, rfl⟩ := exists_ok_of_map decoded
      obtain ⟨each, made⟩ := forall_of_decodeItems parts
      refine ⟨values, by simpa [TaggedValue.parts, tagged, data] using each, made,
        storableItems_iff.2, fun n => nestingItems_le_iff.2⟩
    next => cases decoded
  case h_7 tagged =>
    split at decoded
    next fields data =>
      rw [decodeFields_eq] at decoded
      obtain ⟨entries, parts, rfl⟩ := exists_ok_of_map decoded
      obtain ⟨values, items, rfl⟩ := exists_ok_of_map parts
      obtain ⟨each, made⟩ := forall_of_decodeItems items
      have entry_mem {entry : String × Value}
          (member : entry ∈ Dict.ofPairs ((fields.map Prod.fst).zip values)) : entry.2 ∈ values :=
        (List.of_mem_zip (Dict.mem_of_mem_ofPairs member)).2
      refine ⟨values, by simpa [TaggedValue.parts, tagged, data] using each, made, ?_, ?_⟩
      · exact fun storable => ⟨Dict.ordered_ofPairs _,
          storableEntries_iff.2 fun entry member => storable _ (entry_mem member)⟩
      · exact fun n nesting =>
          nestingEntries_le_iff.2 fun entry member => nesting _ (entry_mem member)
    next => cases decoded
  case h_8 => cases decoded

private theorem eq_error_of_map {α β : Type} {x : Except ValueError α} {f : α → β}
    (failed : x.map f = .error e) : x = .error e := by
  cases x with
  | error e' => exact congrArg Except.error (Except.error.inj failed)
  | ok a => cases failed

private theorem orFail_ne_tooDeep {α : Type} (t : TaggedValue) (found : Option α) :
    orFail (mismatch t) found ≠ .error .tooDeep := by
  cases found <;> nofun

private theorem exists_tooDeep_of_decodeData (failed : decodeData nested t = .error .tooDeep) :
    ∃ part ∈ t.parts, nested part = .error .tooDeep := by
  unfold decodeData at failed
  split at failed
  case h_1 => cases failed
  case h_2 | h_3 | h_4 | h_5 => exact absurd (eq_error_of_map failed) (orFail_ne_tooDeep t _)
  case h_6 tagged =>
    split at failed
    next items data =>
      obtain ⟨part, member, failed⟩ := exists_error_of_decodeItems (eq_error_of_map failed)
      exact ⟨part, by simpa [TaggedValue.parts, tagged, data] using member, failed⟩
    next => cases failed
  case h_7 tagged =>
    split at failed
    next fields data =>
      rw [decodeFields_eq] at failed
      obtain ⟨part, member, failed⟩ :=
        exists_error_of_decodeItems (eq_error_of_map (eq_error_of_map failed))
      exact ⟨part, by simpa [TaggedValue.parts, tagged, data] using member, failed⟩
    next => cases failed
  case h_8 => cases failed

end

private theorem storable_of_decodeWithin {levels : Nat} {j : Json} {v : Value}
    (decoded : decodeWithin levels j = .ok v) : v.Storable ∧ v.nesting < levels := by
  induction levels generalizing j v with
  | zero => cases decoded
  | succ levels ih =>
    rw [decodeWithin] at decoded
    split at decoded
    next t record =>
      obtain ⟨values, madeOf⟩ := exists_madeOf decoded
      have below : ∀ value ∈ values, value.Storable ∧ value.nesting < levels := by
        intro value member
        obtain ⟨part, decoded⟩ := madeOf.made value member
        exact ih decoded
      exact ⟨madeOf.storable fun value member => (below value member).1,
        Nat.lt_succ_of_le (madeOf.nesting levels fun value member => (below value member).2)⟩
    next => cases decoded

/-- Decoding is refused as too deep only when a node lies as deep as the levels that were allowed. -/
private theorem exists_encloses_of_tooDeep {levels : Nat} {j : Json}
    (failed : decodeWithin levels j = .error .tooDeep) :
    ∃ n node, levels ≤ n ∧ j.Encloses n node := by
  induction levels generalizing j with
  | zero => exact ⟨0, j, Nat.le_refl 0, .self j⟩
  | succ levels ih =>
    rw [decodeWithin] at failed
    split at failed
    next t record =>
      obtain ⟨part, member, failed⟩ := exists_tooDeep_of_decodeData failed
      obtain ⟨n, node, deep, encloses⟩ := ih failed
      exact ⟨n + 1, node, Nat.succ_le_succ deep, .part record member encloses⟩
    next => cases failed

private theorem lt_of_encloses {n : Nat} {j node : Json} (encloses : j.Encloses n node)
    {levels : Nat}
    {v : Value} (decoded : decodeWithin levels j = .ok v) : n < levels := by
  induction encloses generalizing levels v with
  | self j =>
    cases levels with
    | zero => cases decoded
    | succ levels => exact Nat.succ_pos levels
  | part record member encloses ih =>
    cases levels with
    | zero => cases decoded
    | succ levels =>
      rw [decodeWithin, record] at decoded
      obtain ⟨values, madeOf⟩ := exists_madeOf decoded
      obtain ⟨value, decoded⟩ := madeOf.each _ member
      exact Nat.succ_lt_succ (ih decoded)

/-- What decodes encodes again, to a tree that decodes to the same value; and a tree is refused as too
deep only when more than `ValueError.maxDepth` records of lists and dictionaries lie around a node of
it, in which case it never decodes. -/
theorem decode_settles (j : Json) :
    (∀ v, decode j = .ok v → ∃ j', encode v = .ok j' ∧ decode j' = .ok v) ∧
      (decode j = .error .tooDeep → ∃ n node, ValueError.maxDepth < n ∧ j.Encloses n node) ∧
      ∀ n node, ValueError.maxDepth < n → j.Encloses n node → ∀ v, decode j ≠ .ok v := by
  refine ⟨fun v decoded => ?_, exists_encloses_of_tooDeep, fun n node deep encloses v decoded => ?_⟩
  · obtain ⟨storable, nesting⟩ := storable_of_decodeWithin decoded
    exact decode_of_encode storable (Nat.le_of_lt_succ nesting)
  · have shallow := lt_of_encloses encloses decoded
    omega

end Value

end GuildSandbox

import GuildSandbox.Proofs.Value.Persistence
import GuildSandbox.Proofs.Value.Views

/-!
The two encodings of values agree.

The plain tree of a value is its tagged tree with the tags taken off. The two encoders accept the same
values, and what one refuses the other refuses for the same reason, also when a value has several
defects: both look at the depth of a part before its type, and at the parts in order.
-/

set_option autoImplicit false
set_option relaxedAutoImplicit false

namespace GuildSandbox

namespace Json

mutual

def withoutTags : Json → Json
  | .obj [("data", data), ("type", .str tag)] => dataWithoutTags tag data
  | j => j

def dataWithoutTags (tag : String) : Json → Json
  | .arr items => if tag = "list" then .arr (itemsWithoutTags items) else .arr items
  | .obj fields => if tag = "dict" then .obj (fieldsWithoutTags fields) else .obj fields
  | data => data

def itemsWithoutTags : List Json → List Json
  | [] => []
  | item :: rest => withoutTags item :: itemsWithoutTags rest

def fieldsWithoutTags : List (String × Json) → List (String × Json)
  | [] => []
  | (name, value) :: rest => (name, withoutTags value) :: fieldsWithoutTags rest

end

end Json

open Json

namespace Value

mutual

/-- The plain tree of a part is its record without tags, and the failures are the same. -/
theorem toPlainAt_eq : (v : Value) → ∀ depth,
    toPlainAt depth v = (encodeAt depth v).map fun t => t.toSortedJson.withoutTags
  | .unit, depth | .bool _, depth | .int _, depth | .str _, depth | .char _, depth
  | .blob _, depth | .fn _ _, depth | .range _ _ _, depth | .view _, depth => by
    rw [toPlainAt, encodeAt]
    split <;> rfl
  | .float f, depth => by
    rw [toPlainAt, encodeAt]
    split
    · rfl
    · unfold finiteNumber
      split <;> rfl
  | .array items, depth => by
    rw [toPlainAt, encodeAt, toPlainItems_eq items (depth + 1)]
    split
    · rfl
    · cases encodeItems (depth + 1) items <;> rfl
  | .map entries, depth => by
    rw [toPlainAt, encodeAt, toPlainEntries_eq entries (depth + 1)]
    split
    · rfl
    · cases encodeEntries (depth + 1) entries <;> rfl

private theorem toPlainItems_eq : (items : List Value) → ∀ depth,
    toPlainItems depth items = (encodeItems depth items).map itemsWithoutTags
  | [], _ => rfl
  | item :: rest, depth => by
    rw [toPlainItems, encodeItems, toPlainAt_eq item depth, toPlainItems_eq rest depth]
    cases encodeAt depth item with
    | error e => rfl
    | ok t => cases encodeItems depth rest <;> rfl

private theorem toPlainEntries_eq : (entries : List (String × Value)) → ∀ depth,
    toPlainEntries depth entries = (encodeEntries depth entries).map fieldsWithoutTags
  | [], _ => rfl
  | (key, item) :: rest, depth => by
    rw [toPlainEntries, encodeEntries, toPlainAt_eq item depth, toPlainEntries_eq rest depth]
    cases encodeAt depth item with
    | error e => rfl
    | ok t => cases encodeEntries depth rest <;> rfl

end

mutual

def leaves : Value → List Value
  | .array items => leavesOfItems items
  | .map entries => leavesOfEntries entries
  | v => [v]

def leavesOfItems : List Value → List Value
  | [] => []
  | item :: rest => leaves item ++ leavesOfItems rest

def leavesOfEntries : List (String × Value) → List Value
  | [] => []
  | (_, item) :: rest => leaves item ++ leavesOfEntries rest

end

/-- A value that is written without looking into it: a unit, a truth value, an integer, a finite
float or a text. -/
def IsScalar : Value → Prop
  | .unit | .bool _ | .int _ | .str _ => True
  | .float f => Number.Binary64.isFinite f = true
  | _ => False

private theorem exists_ok_iff_of_bind {ε α β : Type} {x : Except ε α} {f : α → β} :
    (∃ b, (do return f (← x)) = Except.ok b) ↔ ∃ a, x = .ok a := by
  constructor
  · rintro ⟨b, ok⟩
    obtain ⟨a, ok, -⟩ := exists_ok_of_bind ok
    exact ⟨a, ok⟩
  · rintro ⟨a, rfl⟩
    exact ⟨f a, rfl⟩

private theorem exists_ok_iff_of_both {ε α β γ : Type} {x : Except ε α} {y : Except ε β}
    {f : α → β → γ} : (∃ c, (do let a ← x; return f a (← y)) = Except.ok c) ↔
      (∃ a, x = .ok a) ∧ ∃ b, y = .ok b := by
  constructor
  · rintro ⟨c, both⟩
    obtain ⟨a, first, both⟩ := exists_ok_of_bind both
    obtain ⟨b, second, -⟩ := exists_ok_of_bind both
    exact ⟨⟨a, first⟩, b, second⟩
  · rintro ⟨⟨a, rfl⟩, b, rfl⟩
    exact ⟨f a b, rfl⟩

private theorem add_max_le_iff {depth inner others bound : Nat} :
    depth + max (inner + 1) others ≤ bound ↔
      depth + 1 + inner ≤ bound ∧ depth + others ≤ bound := by
  omega

private theorem depth_le_of_encodeAt {v : Value} {depth : Nat} {t : TaggedValue}
    (encoded : encodeAt depth v = .ok t) : depth ≤ ValueError.maxDepth := by
  by_contra deep
  have refused : encodeAt depth v = .error .tooDeep := by
    cases v <;> rw [encodeAt, if_pos (by omega)]
  cases refused.symm.trans encoded

private theorem exists_encodeAt_scalar {v : Value} {depth : Nat} (alone : v.leaves = [v])
    (flat : v.nesting = 0)
    (encodes : depth ≤ ValueError.maxDepth → ((∃ t, encodeAt depth v = .ok t) ↔ v.IsScalar)) :
    (∃ t, encodeAt depth v = .ok t) ↔
      (∀ leaf ∈ v.leaves, leaf.IsScalar) ∧ depth + v.nesting ≤ ValueError.maxDepth := by
  rw [alone, flat, List.forall_mem_singleton, Nat.add_zero]
  constructor
  · rintro ⟨t, encoded⟩
    have here := depth_le_of_encodeAt encoded
    exact ⟨(encodes here).1 ⟨t, encoded⟩, here⟩
  · rintro ⟨scalar, here⟩
    exact (encodes here).2 scalar

mutual

/-- A part encodes exactly when its leaves are scalars and none of its parts lies too deep. -/
theorem exists_encodeAt_iff : (v : Value) → ∀ depth, (∃ t, encodeAt depth v = .ok t) ↔
    (∀ leaf ∈ v.leaves, leaf.IsScalar) ∧ depth + v.nesting ≤ ValueError.maxDepth
  | .unit, depth | .bool _, depth | .int _, depth | .str _, depth | .char _, depth
  | .blob _, depth | .fn _ _, depth | .range _ _ _, depth | .view _, depth => by
    refine exists_encodeAt_scalar rfl rfl fun here => ?_
    rw [encodeAt, if_neg (by omega)]
    simp [IsScalar]
  | .float f, depth => by
    refine exists_encodeAt_scalar rfl rfl fun here => ?_
    rw [encodeAt, if_neg (by omega), IsScalar, finiteNumber, JsonNumber.ofFloat?]
    by_cases finite : Number.Binary64.isFinite f = true
    · simp [finite]
    · simp [finite]
  | .array items, depth => by
    by_cases deep : ValueError.maxDepth < depth
    · rw [encodeAt, if_pos deep]
      exact iff_of_false (fun ⟨_, encoded⟩ => nomatch encoded) fun ⟨_, fits⟩ => by omega
    · rw [encodeAt, if_neg deep]
      refine Iff.trans ?_ (exists_encodeItems_iff items depth (by omega))
      exact exists_ok_iff_of_bind
  | .map entries, depth => by
    by_cases deep : ValueError.maxDepth < depth
    · rw [encodeAt, if_pos deep]
      exact iff_of_false (fun ⟨_, encoded⟩ => nomatch encoded) fun ⟨_, fits⟩ => by omega
    · rw [encodeAt, if_neg deep]
      refine Iff.trans ?_ (exists_encodeEntries_iff entries depth (by omega))
      exact exists_ok_iff_of_bind

private theorem exists_encodeItems_iff : (items : List Value) → ∀ depth,
    depth ≤ ValueError.maxDepth → ((∃ trees, encodeItems (depth + 1) items = .ok trees) ↔
      (∀ leaf ∈ leavesOfItems items, leaf.IsScalar) ∧
        depth + nestingItems items ≤ ValueError.maxDepth)
  | [], _, here => iff_of_true ⟨[], rfl⟩ ⟨List.forall_mem_nil _, here⟩
  | item :: rest, depth, here => by
    rw [encodeItems, exists_ok_iff_of_both, exists_encodeAt_iff item (depth + 1),
      exists_encodeItems_iff rest depth here, leavesOfItems, List.forall_mem_append, nestingItems,
      add_max_le_iff]
    exact and_and_and_comm

private theorem exists_encodeEntries_iff : (entries : List (String × Value)) → ∀ depth,
    depth ≤ ValueError.maxDepth → ((∃ fields, encodeEntries (depth + 1) entries = .ok fields) ↔
      (∀ leaf ∈ leavesOfEntries entries, leaf.IsScalar) ∧
        depth + nestingEntries entries ≤ ValueError.maxDepth)
  | [], _, here => iff_of_true ⟨[], rfl⟩ ⟨List.forall_mem_nil _, here⟩
  | (_, item) :: rest, depth, here => by
    rw [encodeEntries, exists_ok_iff_of_both, exists_encodeAt_iff item (depth + 1),
      exists_encodeEntries_iff rest depth here, leavesOfEntries, List.forall_mem_append,
      nestingEntries, add_max_le_iff]
    exact and_and_and_comm

end

/-- The plain tree of a value is its tagged tree without tags, a value that one encoder refuses is
refused by the other for the same reason, and both accept exactly the values whose leaves are scalars
and whose parts lie inside no more than `ValueError.maxDepth` containers. -/
theorem toPlainJson_eq_map_encode (v : Value) :
    v.toPlainJson = v.encode.map withoutTags ∧
      (∀ e, v.toPlainJson = .error e ↔ v.encode = .error e) ∧
      ((∃ j, v.toPlainJson = .ok j) ↔ ∃ j, v.encode = .ok j) ∧
      ((∃ j, v.encode = .ok j) ↔
        (∀ leaf ∈ v.leaves, leaf.IsScalar) ∧ v.nesting ≤ ValueError.maxDepth) := by
  have same : v.toPlainJson = v.encode.map withoutTags := by
    rw [toPlainJson, encode, toPlainAt_eq]
    cases encodeAt 0 v <;> rfl
  have accepted : (∃ j, v.encode = .ok j) ↔ ∃ t, encodeAt 0 v = .ok t := by
    rw [encode]
    cases encodeAt 0 v <;> simp [Except.map]
  refine ⟨same, ?_, ?_, ?_⟩
  · rw [same]
    cases v.encode <;> simp [Except.map]
  · rw [same]
    cases v.encode <;> simp [Except.map]
  · rw [accepted, exists_encodeAt_iff, Nat.zero_add]

end Value

end GuildSandbox

import GuildSandbox.Proofs.Value.Stored
import GuildSandbox.Proofs.Value.WholeNumber

/-!
Values written as plain JSON and read again.

Plain JSON does not tell an integer from a float of the same value. So a value comes back with its
whole floats turned into integers, and otherwise as it was. Reading takes every tree that is not too
deep; what it makes of one can be stored, and comes back as it is from then on.
-/

set_option autoImplicit false
set_option relaxedAutoImplicit false

namespace GuildSandbox.Value

open Number.Binary64 (exact isFinite toInt64?)

mutual

/-- The value with each float that is an integer within 64 bits replaced by that integer. -/
def normalized : Value → Value
  | .float f => match toInt64? f with
    | some n => .int n
    | none => .float f
  | .array items => .array (normalizedItems items)
  | .map entries => .map (normalizedEntries entries)
  | v => v

def normalizedItems : List Value → List Value
  | [] => []
  | item :: rest => normalized item :: normalizedItems rest

def normalizedEntries : List (String × Value) → List (String × Value)
  | [] => []
  | (key, item) :: rest => (key, normalized item) :: normalizedEntries rest

end

mutual

def ofTree : Json → Value
  | .null => .unit
  | .bool b => .bool b
  | .num n => ofNumber n
  | .str s => .str s
  | .arr items => .array (ofTrees items)
  | .obj fields => .map (Dict.ofPairs (ofFields fields))

def ofTrees : List Json → List Value
  | [] => []
  | item :: rest => ofTree item :: ofTrees rest

def ofFields : List (String × Json) → List (String × Value)
  | [] => []
  | (key, item) :: rest => (key, ofTree item) :: ofFields rest

end

private theorem normalized_float_eq_int_iff {f : Float} (finite : isFinite f = true) (n : Int64) :
    normalized (.float f) = .int n ↔ exact f = n.toInt := by
  rw [← Number.Binary64.toInt64?_eq_some_iff finite, normalized]
  cases toInt64? f <;> simp

private theorem normalized_float_of_ne {f : Float} (finite : isFinite f = true)
    (other : ∀ n : Int64, exact f ≠ n.toInt) : normalized (.float f) = .float f := by
  cases whole : toInt64? f with
  | some n => exact absurd ((Number.Binary64.toInt64?_eq_some_iff finite).1 whole) (other n)
  | none => rw [normalized, whole]

private theorem ofNumber_int64 (n : Int64) : ofNumber (.ofInt64 n) = .int n := by
  simp [ofNumber, wholeNumber?, JsonNumber.ofInt64, JsonNumber.toInt64?,
    Number.Binary64.int64?_toInt]

private theorem ofNumber_float (f : Float) (finite : isFinite f = true) :
    ofNumber (.float f finite) = normalized (.float f) := by
  cases whole : toInt64? f with
  | none | some n =>
    simp only [ofNumber, wholeNumber?, JsonNumber.toInt64?, Option.none_or, JsonNumber.toFloat,
      normalized, whole]

private theorem normalizedItems_eq_self {items : List Value}
    (each : ∀ item ∈ items, item.normalized = item) : normalizedItems items = items := by
  induction items with
  | nil => rfl
  | cons item rest ih =>
    obtain ⟨here, there⟩ := List.forall_mem_cons.1 each
    rw [normalizedItems, here, ih there]

private theorem normalizedEntries_eq_self {entries : List (String × Value)}
    (each : ∀ entry ∈ entries, entry.2.normalized = entry.2) :
    normalizedEntries entries = entries := by
  induction entries with
  | nil => rfl
  | cons entry rest ih =>
    obtain ⟨here, there⟩ := List.forall_mem_cons.1 each
    rw [normalizedEntries, here, ih there]

private theorem keys_normalizedEntries (entries : List (String × Value)) :
    Dict.keys (normalizedEntries entries) = Dict.keys entries := by
  induction entries with
  | nil => rfl
  | cons entry rest ih => exact congrArg (entry.1 :: ·) ih

mutual

private theorem normalized_of_leaves : (v : Value) → (∀ leaf ∈ v.leaves, leaf.normalized = leaf) →
    v.normalized = v
  | .unit, _ | .bool _, _ | .int _, _ | .str _, _ | .char _, _ | .blob _, _ | .fn _ _, _
  | .range _ _ _, _ | .view _, _ => rfl
  | .float _, same => same _ List.mem_cons_self
  | .array items, same => congrArg Value.array (normalizedItems_of_leaves items same)
  | .map entries, same => congrArg Value.map (normalizedEntries_of_leaves entries same)

private theorem normalizedItems_of_leaves : (items : List Value) →
    (∀ leaf ∈ leavesOfItems items, leaf.normalized = leaf) → normalizedItems items = items
  | [], _ => rfl
  | item :: rest, same => by
    obtain ⟨here, there⟩ := List.forall_mem_append.1 same
    rw [normalizedItems, normalized_of_leaves item here, normalizedItems_of_leaves rest there]

private theorem normalizedEntries_of_leaves : (entries : List (String × Value)) →
    (∀ leaf ∈ leavesOfEntries entries, leaf.normalized = leaf) →
      normalizedEntries entries = entries
  | [], _ => rfl
  | (_, item) :: rest, same => by
    obtain ⟨here, there⟩ := List.forall_mem_append.1 same
    rw [normalizedEntries, normalized_of_leaves item here, normalizedEntries_of_leaves rest there]

end

mutual

private theorem ofPlainAt_eq : (j : Json) → ∀ depth, ofPlainAt depth j =
    if depth + j.height ≤ ValueError.maxDepth + 1 then .ok (ofTree j) else .error .tooDeep
  | .null, depth | .bool _, depth | .num _, depth | .str _, depth => by
    change _ = if depth + 1 ≤ ValueError.maxDepth + 1 then _ else _
    rw [ofPlainAt]
    split
    next deep => rw [if_neg (by omega)]
    next shallow =>
      rw [if_pos (by omega)]
      rfl
  | .arr items, depth => by
    rw [ofPlainAt, Json.height]
    split
    next deep => rw [if_neg (by omega)]
    next shallow =>
      rw [ofPlainItems_eq items depth (by omega)]
      split
      next fits => rw [if_pos (by omega)]; rfl
      next exceeds => rw [if_neg (by omega)]; rfl
  | .obj fields, depth => by
    rw [ofPlainAt, Json.height]
    split
    next deep => rw [if_neg (by omega)]
    next shallow =>
      rw [ofPlainFields_eq fields depth (by omega)]
      split
      next fits => rw [if_pos (by omega)]; rfl
      next exceeds => rw [if_neg (by omega)]; rfl

private theorem ofPlainItems_eq : (items : List Json) → ∀ depth, depth ≤ ValueError.maxDepth →
    ofPlainItems (depth + 1) items =
      if depth + Json.heightItems items ≤ ValueError.maxDepth then .ok (ofTrees items)
      else .error .tooDeep
  | [], depth, here => (if_pos here).symm
  | item :: rest, depth, here => by
    rw [ofPlainItems, ofPlainAt_eq item (depth + 1), ofPlainItems_eq rest depth here,
      Json.heightItems]
    by_cases first : depth + item.height ≤ ValueError.maxDepth
    · by_cases others : depth + Json.heightItems rest ≤ ValueError.maxDepth
      · rw [if_pos (by omega), if_pos others, if_pos (by omega)]
        rfl
      · rw [if_pos (by omega), if_neg others, if_neg (by omega)]
        rfl
    · have beyond : ¬ depth + max item.height (Json.heightItems rest) ≤ ValueError.maxDepth := by omega
      rw [if_neg (by omega), if_neg beyond]
      rfl

private theorem ofPlainFields_eq : (fields : List (String × Json)) → ∀ depth,
    depth ≤ ValueError.maxDepth → ofPlainFields (depth + 1) fields =
      if depth + Json.heightFields fields ≤ ValueError.maxDepth then .ok (ofFields fields)
      else .error .tooDeep
  | [], depth, here => (if_pos here).symm
  | (_, item) :: rest, depth, here => by
    rw [ofPlainFields, ofPlainAt_eq item (depth + 1), ofPlainFields_eq rest depth here,
      Json.heightFields]
    by_cases first : depth + item.height ≤ ValueError.maxDepth
    · by_cases others : depth + Json.heightFields rest ≤ ValueError.maxDepth
      · rw [if_pos (by omega), if_pos others, if_pos (by omega)]
        rfl
      · rw [if_pos (by omega), if_neg others, if_neg (by omega)]
        rfl
    · have beyond : ¬ depth + max item.height (Json.heightFields rest) ≤ ValueError.maxDepth := by omega
      rw [if_neg (by omega), if_neg beyond]
      rfl

end

/-- What reading makes of a tree of so many levels: it has a JSON form, nests no deeper than the tree,
and has no whole floats. -/
private structure Settled (v : Value) (levels : Nat) : Prop where
  storable : v.Storable
  nesting : v.nesting < levels
  normalized : v.normalized = v

private theorem Settled.mono {v : Value} {levels more : Nat} (settled : Settled v levels)
    (order : levels ≤ more) : Settled v more :=
  ⟨settled.storable, Nat.lt_of_lt_of_le settled.nesting order, settled.normalized⟩

private theorem settled_ofNumber (n : JsonNumber) : Settled (ofNumber n) 1 := by
  unfold ofNumber
  cases whole : wholeNumber? (.num n) with
  | some i => exact ⟨trivial, Nat.one_pos, rfl⟩
  | none =>
    -- The float that the number is taken as is whole no more than the number.
    have other : toInt64? n.toFloat = none := (Option.or_eq_none_iff.1 whole).2
    exact ⟨n.isFinite_toFloat, Nat.one_pos, by simp only [Value.normalized, other]⟩

private theorem Settled.array {items : List Value} {levels : Nat}
    (each : ∀ item ∈ items, Settled item levels) : Settled (.array items) (levels + 1) where
  storable := storableItems_iff.2 fun item member => (each item member).storable
  nesting := Nat.lt_succ_of_le
    (nestingItems_le_iff.2 fun item member => (each item member).nesting)
  normalized := congrArg Value.array
    (normalizedItems_eq_self fun item member => (each item member).normalized)

private theorem Settled.map {entries : List (String × Value)} {levels : Nat}
    (ordered : Dict.Ordered entries) (each : ∀ entry ∈ entries, Settled entry.2 levels) :
    Settled (.map entries) (levels + 1) where
  storable := ⟨ordered, storableEntries_iff.2 fun entry member => (each entry member).storable⟩
  nesting := Nat.lt_succ_of_le
    (nestingEntries_le_iff.2 fun entry member => (each entry member).nesting)
  normalized := congrArg Value.map
    (normalizedEntries_eq_self fun entry member => (each entry member).normalized)

mutual

private theorem settled_ofTree : (j : Json) → Settled (ofTree j) j.height
  | .null | .bool _ | .str _ => ⟨trivial, Nat.one_pos, rfl⟩
  | .num n => settled_ofNumber n
  | .arr items => .array (settled_of_mem_ofTrees items)
  | .obj fields => .map (Dict.ordered_ofPairs _) fun entry member =>
    settled_of_mem_ofFields fields entry (Dict.mem_of_mem_ofPairs member)

private theorem settled_of_mem_ofTrees : (items : List Json) →
    ∀ v ∈ ofTrees items, Settled v (Json.heightItems items)
  | [] => List.forall_mem_nil _
  | item :: rest => List.forall_mem_cons.2
    ⟨(settled_ofTree item).mono (Nat.le_max_left ..),
      fun v member => (settled_of_mem_ofTrees rest v member).mono (Nat.le_max_right ..)⟩

private theorem settled_of_mem_ofFields : (fields : List (String × Json)) →
    ∀ entry ∈ ofFields fields, Settled entry.2 (Json.heightFields fields)
  | [] => List.forall_mem_nil _
  | (_, item) :: rest => List.forall_mem_cons.2
    ⟨(settled_ofTree item).mono (Nat.le_max_left ..),
      fun entry member => (settled_of_mem_ofFields rest entry member).mono (Nat.le_max_right ..)⟩

end

mutual

/-- A part that has a JSON form and room enough is written as a tree of as many levels as it has, which
stands for the normalized part. -/
private theorem exists_toPlainAt : (v : Value) → v.Storable → ∀ depth,
    depth + v.nesting ≤ ValueError.maxDepth →
      ∃ j, toPlainAt depth v = .ok j ∧ ofTree j = v.normalized ∧ j.height = v.nesting + 1
  | .unit, _, depth, fits | .bool _, _, depth, fits | .str _, _, depth, fits => by
    have shallow : ¬ ValueError.maxDepth < depth := by omega
    exact ⟨_, by rw [toPlainAt, if_neg shallow], rfl, rfl⟩
  | .int n, _, depth, fits => by
    have shallow : ¬ ValueError.maxDepth < depth := by omega
    exact ⟨.int64 n, by rw [toPlainAt, if_neg shallow], ofNumber_int64 n, rfl⟩
  | .float f, finite, depth, fits => by
    have shallow : ¬ ValueError.maxDepth < depth := by omega
    have number : JsonNumber.ofFloat? f = some (.float f finite) := dif_pos finite
    refine ⟨.num (.float f finite), ?_, ofNumber_float f finite, rfl⟩
    rw [toPlainAt, if_neg shallow, finiteNumber, number]
  | .array items, storable, depth, fits => by
    have shallow : ¬ ValueError.maxDepth < depth := by omega
    obtain ⟨trees, written, same, height⟩ := exists_toPlainItems items storable depth fits
    refine ⟨.arr trees, ?_, congrArg Value.array same, congrArg (· + 1) height⟩
    rw [toPlainAt, if_neg shallow, written]
    rfl
  | .map entries, storable, depth, fits => by
    have shallow : ¬ ValueError.maxDepth < depth := by omega
    obtain ⟨fields, written, same, height⟩ :=
      exists_toPlainEntries entries storable.2 depth fits
    have ordered : Dict.Ordered (normalizedEntries entries) := by
      rw [Dict.ordered_iff_keys, keys_normalizedEntries, ← Dict.ordered_iff_keys]
      exact storable.1
    refine ⟨.obj fields, ?_, ?_, congrArg (· + 1) height⟩
    · rw [toPlainAt, if_neg shallow, written]
      rfl
    · rw [ofTree, same, Dict.ofPairs_of_ordered ordered, normalized]
  | .char _, storable, _, _ | .blob _, storable, _, _ | .fn _ _, storable, _, _
  | .range _ _ _, storable, _, _ | .view _, storable, _, _ => storable.elim

private theorem exists_toPlainItems : (items : List Value) → StorableItems items →
    ∀ depth, depth + nestingItems items ≤ ValueError.maxDepth →
      ∃ trees, toPlainItems (depth + 1) items = .ok trees ∧
        ofTrees trees = normalizedItems items ∧ Json.heightItems trees = nestingItems items
  | [], _, _, _ => ⟨[], rfl, rfl, rfl⟩
  | item :: rest, storable, depth, fits => by
    have room : (depth + 1) + item.nesting ≤ ValueError.maxDepth ∧
        depth + nestingItems rest ≤ ValueError.maxDepth := by
      simp only [nestingItems] at fits; omega
    obtain ⟨j, written, same, height⟩ := exists_toPlainAt item storable.1 (depth + 1) room.1
    obtain ⟨trees, others, sameOthers, heights⟩ :=
      exists_toPlainItems rest storable.2 depth room.2
    refine ⟨j :: trees, ?_, ?_, ?_⟩
    · rw [toPlainItems, written, others]
      rfl
    · rw [ofTrees, same, sameOthers, normalizedItems]
    · rw [Json.heightItems, height, heights, nestingItems]

private theorem exists_toPlainEntries : (entries : List (String × Value)) →
    StorableEntries entries → ∀ depth, depth + nestingEntries entries ≤ ValueError.maxDepth →
      ∃ fields, toPlainEntries (depth + 1) entries = .ok fields ∧
        ofFields fields = normalizedEntries entries ∧
        Json.heightFields fields = nestingEntries entries
  | [], _, _, _ => ⟨[], rfl, rfl, rfl⟩
  | (key, item) :: rest, storable, depth, fits => by
    have room : (depth + 1) + item.nesting ≤ ValueError.maxDepth ∧
        depth + nestingEntries rest ≤ ValueError.maxDepth := by
      simp only [nestingEntries] at fits; omega
    obtain ⟨j, written, same, height⟩ := exists_toPlainAt item storable.1 (depth + 1) room.1
    obtain ⟨fields, others, sameOthers, heights⟩ :=
      exists_toPlainEntries rest storable.2 depth room.2
    refine ⟨(key, j) :: fields, ?_, ?_, ?_⟩
    · rw [toPlainEntries, written, others]
      rfl
    · rw [ofFields, same, sameOthers, normalizedEntries]
    · rw [Json.heightFields, height, heights, nestingEntries]

end

/-- A value that has a JSON form and nests no deeper than allowed is written as plain JSON from which
its normalized form is read. -/
private theorem exists_toPlainJson {v : Value} (storable : v.Storable)
    (nested : v.nesting ≤ ValueError.maxDepth) :
    ∃ j, v.toPlainJson = .ok j ∧ ofPlainJson j = .ok v.normalized := by
  obtain ⟨j, written, same, height⟩ := exists_toPlainAt v storable 0 (by omega)
  refine ⟨j, written, ?_⟩
  rw [ofPlainJson, ofPlainAt_eq, if_pos (by omega), same]

private theorem storable_of_toPlainJson {v : Value} {j : Json} (ordered : v.InKeyOrder)
    (written : v.toPlainJson = .ok j) : v.Storable ∧ v.nesting ≤ ValueError.maxDepth := by
  rw [toPlainJson, toPlainAt_eq] at written
  obtain ⟨t, encoded, -⟩ := exists_ok_of_map written
  have text : toJsonText v = .ok t.toJson.compact := by
    rw [toJsonText, encoded]
    rfl
  exact storable_of_toJsonText ordered text

private theorem isScalar_of_mem_leaves {v : Value} {j : Json} (written : v.toPlainJson = .ok j)
    {leaf : Value} (member : leaf ∈ v.leaves) : leaf.IsScalar := by
  rw [toPlainJson, toPlainAt_eq] at written
  obtain ⟨t, encoded, -⟩ := exists_ok_of_map written
  exact ((exists_encodeAt_iff v 0).1 ⟨t, encoded⟩).1 leaf member

private theorem normalized_of_toPlainJson {v : Value} {j : Json} (written : v.toPlainJson = .ok j)
    (other : ∀ f, .float f ∈ v.leaves → ∀ n : Int64, exact f ≠ n.toInt) : v.normalized = v := by
  refine normalized_of_leaves v fun leaf member => ?_
  have scalar := isScalar_of_mem_leaves written member
  cases leaf with
  | float f => exact normalized_float_of_ne scalar (other f member)
  | array _ | map _ => exact scalar.elim
  | _ => rfl

/-- A value that is written as plain JSON is read again with each float that is an integer within 64
bits turned into that integer, and as itself when it has no such float. A tree without parts inside
more than `ValueError.maxDepth` containers is read as a value that can be stored, and that comes back
as itself when it is written and read again; any other tree is refused as too deep. -/
theorem ofPlainJson_toPlainJson :
    (∀ (v : Value) (j : Json), v.InKeyOrder → v.toPlainJson = .ok j →
      ofPlainJson j = .ok v.normalized ∧
      ((∀ f, .float f ∈ v.leaves → ∀ n : Int64, exact f ≠ n.toInt) → ofPlainJson j = .ok v)) ∧
    (∀ f, isFinite f = true →
      (∀ n : Int64, normalized (.float f) = .int n ↔ exact f = n.toInt) ∧
      ((∀ n : Int64, exact f ≠ n.toInt) → normalized (.float f) = .float f)) ∧
    ∀ j : Json,
      (j.height ≤ ValueError.maxDepth + 1 → ∃ w, ofPlainJson j = .ok w ∧
        (∃ tree text, w.encode = .ok tree ∧ w.toJsonText = .ok text) ∧
        ∃ j', w.toPlainJson = .ok j' ∧ ofPlainJson j' = .ok w) ∧
      (ValueError.maxDepth + 1 < j.height → ofPlainJson j = .error .tooDeep) := by
  refine ⟨fun v j ordered written => ?_, fun f finite => ?_, fun j => ⟨fun shallow => ?_, fun deep => ?_⟩⟩
  · obtain ⟨storable, nested⟩ := storable_of_toPlainJson ordered written
    obtain ⟨j', written', read⟩ := exists_toPlainJson storable nested
    cases written.symm.trans written'
    exact ⟨read, fun other => by rw [read, normalized_of_toPlainJson written other]⟩
  · exact ⟨normalized_float_eq_int_iff finite, normalized_float_of_ne finite⟩
  · have settled := settled_ofTree j
    have nested : (ofTree j).nesting ≤ ValueError.maxDepth := by
      have nesting := settled.nesting
      omega
    obtain ⟨t, encoded⟩ : ∃ t, encodeAt 0 (ofTree j) = .ok t := by
      obtain ⟨tree, encoded, -⟩ := decode_of_encode settled.storable nested
      obtain ⟨t, encoded, -⟩ := exists_ok_of_map encoded
      exact ⟨t, encoded⟩
    obtain ⟨j', written, read⟩ := exists_toPlainJson settled.storable nested
    refine ⟨ofTree j, ?_, ⟨t.toSortedJson, t.toJson.compact, ?_, ?_⟩, j', written, ?_⟩
    · rw [ofPlainJson, ofPlainAt_eq, if_pos (by omega)]
    · rw [encode, encoded]
      rfl
    · rw [toJsonText, encoded]
      rfl
    · rw [read, settled.normalized]
  · rw [ofPlainJson, ofPlainAt_eq, if_neg (by omega)]

theorem whole_float_read_as_int :
    (∃ j, (Value.array [.float 2.0, .float 2.5]).toPlainJson = .ok j ∧
      ofPlainJson j = .ok (.array [.int 2, .float 2.5])) ∧
    ofPlainJson ((fun j => Json.arr [j])^[33] .null) = .error .tooDeep := by
  have whole : isFinite 2.0 = true := by decide +kernel
  have half : isFinite 2.5 = true := by decide +kernel
  have written : (Value.array [.float 2.0, .float 2.5]).toPlainJson =
      .ok (.arr [.num (.float 2.0 whole), .num (.float 2.5 half)]) := by
    simp [toPlainJson, toPlainAt, toPlainItems, finiteNumber, JsonNumber.ofFloat?, whole, half,
      ValueError.maxDepth, pure, Except.pure, bind, Except.bind, Except.map]
  have two : normalized (.float 2.0) = .int 2 :=
    ((ofPlainJson_toPlainJson.2.1 2.0 whole).1 2).2 (by decide +kernel)
  have other : normalized (.float 2.5) = .float 2.5 := by
    simp only [normalized, show toInt64? 2.5 = none by decide +kernel]
  refine ⟨⟨_, written, ?_⟩, ?_⟩
  · have ordered : (Value.array [.float 2.0, .float 2.5]).InKeyOrder := ⟨trivial, trivial, trivial⟩
    rw [(ofPlainJson_toPlainJson.1 _ _ ordered written).1]
    simp only [normalized.eq_def (.array _), normalizedItems, two, other]
  · exact (ofPlainJson_toPlainJson.2.2 _).2 (by decide +kernel)

end GuildSandbox.Value

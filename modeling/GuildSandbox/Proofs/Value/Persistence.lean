import GuildSandbox.Proofs.Json.RoundTrip
import GuildSandbox.Value.Tagged

/-!
Stored values survive persistence.

A value of units, truth values, integers, finite floats, text, arrays and maps that nests no deeper
than `ValueError.maxDepth` has a text, and the text reads back as that very value. The record of a
value is at most two levels of JSON for each container around its deepest part and two more, which
is within what the reader of texts allows.
-/

set_option autoImplicit false
set_option relaxedAutoImplicit false

namespace GuildSandbox.Value

mutual

/-- The value has a JSON form: its parts are units, truth values, integers, finite floats, text,
arrays, and maps with their entries in key order. -/
def Storable : Value → Prop
  | .unit | .bool _ | .int _ | .str _ => True
  | .float f => Number.Binary64.isFinite f = true
  | .array items => StorableItems items
  | .map entries => Dict.Ordered entries ∧ StorableEntries entries
  | .char _ | .blob _ | .fn _ _ | .range _ _ _ | .view _ => False

def StorableItems : List Value → Prop
  | [] => True
  | item :: rest => Storable item ∧ StorableItems rest

def StorableEntries : List (String × Value) → Prop
  | [] => True
  | (_, item) :: rest => Storable item ∧ StorableEntries rest

end

mutual

def nesting : Value → Nat
  | .array items => nestingItems items
  | .map entries => nestingEntries entries
  | _ => 0

def nestingItems : List Value → Nat
  | [] => 0
  | item :: rest => max (nesting item + 1) (nestingItems rest)

def nestingEntries : List (String × Value) → Nat
  | [] => 0
  | (_, item) :: rest => max (nesting item + 1) (nestingEntries rest)

end

private theorem height_toJson (t : TaggedValue) : t.toJson.height = t.toSortedJson.height := by
  simp only [TaggedValue.toJson, TaggedValue.toSortedJson, Json.height, Json.heightFields]
  omega

/-- A record that stands for a value: its data are canonical and no deeper than the value calls for,
and it decodes to the value wherever that may nest. -/
private structure Represents (t : TaggedValue) (v : Value) : Prop where
  canonical : t.data.canonical = t.data
  height : t.data.height ≤ 2 * v.nesting + 1
  decodes : ∀ levels, v.nesting < levels → decodeWithin levels t.toSortedJson = .ok v

private theorem ofJson?_toSortedJson {t : TaggedValue} (canonical : t.data.canonical = t.data) :
    TaggedValue.ofJson? t.toSortedJson = some t := by
  simp [TaggedValue.ofJson?, TaggedValue.toSortedJson, Json.recordFields?, Json.namedFields?,
    Json.required, Json.toStr?, Json.withDefault, Json.anything, canonical]

private theorem canonical_toSortedJson {t : TaggedValue} (canonical : t.data.canonical = t.data) :
    t.toSortedJson.canonical = t.toSortedJson := by
  have before : "data" < "type" := by decide +kernel
  have ordered : Dict.Ordered [("data", t.data), ("type", Json.str t.tag)] :=
    List.pairwise_pair.2 before
  simp only [TaggedValue.toSortedJson, Json.canonical, Json.canonicalFields, canonical,
    Dict.ofPairs_of_ordered ordered]

private theorem canonical_toJson {t : TaggedValue} (canonical : t.data.canonical = t.data) :
    t.toJson.canonical = t.toSortedJson := by
  have before : "data" < "type" := by decide
  simp [TaggedValue.toJson, TaggedValue.toSortedJson, Json.canonical, Json.canonicalFields,
    canonical, Dict.ofPairs, Dict.insert, before]

private theorem height_toSortedJson (t : TaggedValue) :
    t.toSortedJson.height ≤ t.data.height + 1 := by
  have positive : 1 ≤ t.data.height := by cases t.data <;> simp [Json.height]
  simp only [TaggedValue.toSortedJson, Json.height, Json.heightFields]
  omega

private theorem decodeWithin_toSortedJson {t : TaggedValue} (canonical : t.data.canonical = t.data)
    (levels : Nat) : decodeWithin (levels + 1) t.toSortedJson = decodeData (decodeWithin levels) t := by
  rw [decodeWithin, ofJson?_toSortedJson canonical]

private theorem represents_of_decodeData {t : TaggedValue} {v : Value}
    (canonical : t.data.canonical = t.data) (flat : t.data.height = 1)
    (decodes : ∀ nested, decodeData nested t = .ok v) : Represents t v where
  canonical := canonical
  height := by omega
  decodes levels enough := by
    obtain ⟨levels, rfl⟩ := Nat.exists_eq_add_one_of_ne_zero (Nat.ne_zero_of_lt enough)
    rw [decodeWithin_toSortedJson canonical, decodes]

private structure RepresentItems (trees : List Json) (items : List Value) : Prop where
  canonical : Json.canonicalItems trees = trees
  height : Json.heightItems trees ≤ 2 * nestingItems items
  decodes : ∀ levels, nestingItems items ≤ levels →
    decodeItems (decodeWithin levels) trees = .ok items

private structure RepresentEntries (fields : List (String × Json))
    (entries : List (String × Value)) : Prop where
  keys : Dict.keys fields = Dict.keys entries
  canonical : Json.canonicalFields fields = fields
  height : Json.heightFields fields ≤ 2 * nestingEntries entries
  decodes : ∀ levels, nestingEntries entries ≤ levels →
    decodeFields (decodeWithin levels) fields = .ok entries

private theorem RepresentItems.array {trees : List Json} {items : List Value}
    (represent : RepresentItems trees items) :
    Represents { tag := "list", data := .arr trees } (.array items) := by
  have canonical : (Json.arr trees).canonical = .arr trees := by
    rw [Json.canonical, represent.canonical]
  refine ⟨canonical, Nat.add_le_add_right represent.height 1, ?_⟩
  intro levels enough
  obtain ⟨levels, rfl⟩ := Nat.exists_eq_add_one_of_ne_zero (Nat.ne_zero_of_lt enough)
  have decoded := represent.decodes levels (Nat.le_of_lt_succ enough)
  rw [decodeWithin_toSortedJson canonical]
  simp only [decodeData, decoded]
  rfl

private theorem RepresentEntries.map {fields : List (String × Json)}
    {entries : List (String × Value)} (represent : RepresentEntries fields entries)
    (ordered : Dict.Ordered entries) :
    Represents { tag := "dict", data := .obj fields } (.map entries) := by
  have fieldsOrdered : Dict.Ordered fields := by
    rw [Dict.ordered_iff_keys, represent.keys, ← Dict.ordered_iff_keys]
    exact ordered
  have canonical : (Json.obj fields).canonical = .obj fields := by
    rw [Json.canonical, represent.canonical, Dict.ofPairs_of_ordered fieldsOrdered]
  refine ⟨canonical, Nat.add_le_add_right represent.height 1, ?_⟩
  intro levels enough
  obtain ⟨levels, rfl⟩ := Nat.exists_eq_add_one_of_ne_zero (Nat.ne_zero_of_lt enough)
  have decoded := represent.decodes levels (Nat.le_of_lt_succ enough)
  rw [decodeWithin_toSortedJson canonical]
  simp only [decodeData, decoded, Except.map, Dict.ofPairs_of_ordered ordered]

private theorem RepresentItems.cons {t : TaggedValue} {item : Value} {trees : List Json}
    {rest : List Value} (first : Represents t item) (others : RepresentItems trees rest) :
    RepresentItems (t.toSortedJson :: trees) (item :: rest) where
  canonical := by
    rw [Json.canonicalItems, canonical_toSortedJson first.canonical, others.canonical]
  height := by
    have record := height_toSortedJson t
    have data := first.height
    have tail := others.height
    simp only [Json.heightItems, nestingItems]
    omega
  decodes levels enough := by
    obtain ⟨here, there⟩ := Nat.max_le.1 enough
    simp only [decodeItems, first.decodes levels here, others.decodes levels there]
    rfl

private theorem RepresentEntries.cons {t : TaggedValue} {key : String} {item : Value}
    {fields : List (String × Json)} {rest : List (String × Value)} (first : Represents t item)
    (others : RepresentEntries fields rest) :
    RepresentEntries ((key, t.toSortedJson) :: fields) ((key, item) :: rest) where
  keys := congrArg (key :: ·) others.keys
  canonical := by
    rw [Json.canonicalFields, canonical_toSortedJson first.canonical, others.canonical]
  height := by
    have record := height_toSortedJson t
    have data := first.height
    have tail := others.height
    simp only [Json.heightFields, nestingEntries]
    omega
  decodes levels enough := by
    obtain ⟨here, there⟩ := Nat.max_le.1 enough
    simp only [decodeFields, first.decodes levels here, others.decodes levels there]
    rfl

mutual

private theorem encodeAt_represents : (v : Value) → v.Storable → ∀ depth,
    depth + v.nesting ≤ ValueError.maxDepth →
      ∃ t, encodeAt depth v = .ok t ∧ Represents t v
  | .unit, _, depth, fits => by
    have shallow : ¬ ValueError.maxDepth < depth := by omega
    refine ⟨_, by rw [encodeAt, if_neg shallow], ?_⟩
    exact represents_of_decodeData rfl rfl fun _ => rfl
  | .bool b, _, depth, fits => by
    have shallow : ¬ ValueError.maxDepth < depth := by omega
    refine ⟨_, by rw [encodeAt, if_neg shallow], ?_⟩
    exact represents_of_decodeData rfl rfl fun _ => rfl
  | .int n, _, depth, fits => by
    have shallow : ¬ ValueError.maxDepth < depth := by omega
    refine ⟨_, by rw [encodeAt, if_neg shallow], ?_⟩
    refine represents_of_decodeData rfl rfl fun nested => ?_
    simp [decodeData, Json.int64, JsonNumber.ofInt64, wholeNumber?, JsonNumber.toInt64?,
      Number.Binary64.int64?_toInt, orFail, Except.map]
  | .float f, finite, depth, fits => by
    have shallow : ¬ ValueError.maxDepth < depth := by omega
    have number : JsonNumber.ofFloat? f = some (.float f finite) := dif_pos finite
    refine ⟨{ tag := "float", data := .num (.float f finite) }, ?_, ?_⟩
    · rw [encodeAt, if_neg shallow, finiteNumber, number]
      rfl
    · exact represents_of_decodeData rfl rfl fun _ => rfl
  | .str s, _, depth, fits => by
    have shallow : ¬ ValueError.maxDepth < depth := by omega
    refine ⟨_, by rw [encodeAt, if_neg shallow], ?_⟩
    exact represents_of_decodeData rfl rfl fun _ => rfl
  | .array items, storable, depth, fits => by
    have shallow : ¬ ValueError.maxDepth < depth := by omega
    obtain ⟨trees, encoded, represent⟩ :=
      encodeItems_represent items storable depth fits
    refine ⟨_, ?_, represent.array⟩
    rw [encodeAt, if_neg shallow, encoded]
    rfl
  | .map entries, storable, depth, fits => by
    have shallow : ¬ ValueError.maxDepth < depth := by omega
    obtain ⟨fields, encoded, represent⟩ :=
      encodeEntries_represent entries storable.2 depth fits
    refine ⟨_, ?_, represent.map storable.1⟩
    rw [encodeAt, if_neg shallow, encoded]
    rfl
  | .char _, storable, _, _ => storable.elim
  | .blob _, storable, _, _ => storable.elim
  | .fn _ _, storable, _, _ => storable.elim
  | .range _ _ _, storable, _, _ => storable.elim
  | .view _, storable, _, _ => storable.elim

private theorem encodeItems_represent : (items : List Value) → StorableItems items →
    ∀ depth, depth + nestingItems items ≤ ValueError.maxDepth →
      ∃ trees, encodeItems (depth + 1) items = .ok trees ∧ RepresentItems trees items
  | [], _, depth, _ => ⟨[], rfl, ⟨rfl, Nat.le_refl _, fun _ _ => rfl⟩⟩
  | item :: rest, storable, depth, fits => by
    have room : (depth + 1) + item.nesting ≤ ValueError.maxDepth ∧
        depth + nestingItems rest ≤ ValueError.maxDepth := by
      simp only [nestingItems] at fits; omega
    obtain ⟨t, encoded, first⟩ := encodeAt_represents item storable.1 (depth + 1) room.1
    obtain ⟨trees, others, represent⟩ :=
      encodeItems_represent rest storable.2 depth room.2
    refine ⟨t.toSortedJson :: trees, ?_, represent.cons first⟩
    rw [encodeItems, encoded, others]
    rfl

private theorem encodeEntries_represent : (entries : List (String × Value)) →
    StorableEntries entries → ∀ depth, depth + nestingEntries entries ≤ ValueError.maxDepth →
      ∃ fields, encodeEntries (depth + 1) entries = .ok fields ∧ RepresentEntries fields entries
  | [], _, depth, _ => ⟨[], rfl, ⟨rfl, rfl, Nat.le_refl _, fun _ _ => rfl⟩⟩
  | (key, item) :: rest, storable, depth, fits => by
    have room : (depth + 1) + item.nesting ≤ ValueError.maxDepth ∧
        depth + nestingEntries rest ≤ ValueError.maxDepth := by
      simp only [nestingEntries] at fits; omega
    obtain ⟨t, encoded, first⟩ := encodeAt_represents item storable.1 (depth + 1) room.1
    obtain ⟨fields, others, represent⟩ :=
      encodeEntries_represent rest storable.2 depth room.2
    refine ⟨(key, t.toSortedJson) :: fields, ?_, represent.cons first⟩
    rw [encodeEntries, encoded, others]
    rfl

end

/-- A value that has a JSON form and nests no deeper than allowed encodes to a tree that decodes to
exactly that value. -/
theorem decode_of_encode {v : Value} (storable : v.Storable)
    (nested : v.nesting ≤ ValueError.maxDepth) : ∃ tree, encode v = .ok tree ∧ decode tree = .ok v := by
  obtain ⟨t, encoded, represents⟩ := encodeAt_represents v storable 0 (by omega)
  refine ⟨t.toSortedJson, ?_, represents.decodes _ (Nat.lt_succ_of_le nested)⟩
  rw [encode, encoded]
  rfl

/-- A value that has a JSON form and nests no deeper than allowed is stored as a text that reads
back as exactly that value; as a tree, the text is the tagged form of the value, although it names
the tag of the outermost record first. -/
theorem ofJsonText_toJsonText (v : Value) (storable : v.Storable)
    (nested : v.nesting ≤ ValueError.maxDepth) :
    ∃ text tree, toJsonText v = .ok text ∧ ofJsonText text = .ok v ∧ encode v = .ok tree ∧
      Json.parseCanonical? text = some tree := by
  obtain ⟨t, encoded, represents⟩ := encodeAt_represents v storable 0 (by omega)
  have height : t.toJson.height ≤ Json.maxNesting := by
    have record := height_toSortedJson t
    have data := represents.height
    have room : 2 * ValueError.maxDepth + 2 ≤ Json.maxNesting := by decide
    rw [height_toJson]
    omega
  have tree : Json.parseCanonical? t.toJson.compact = some t.toSortedJson := by
    rw [Json.parseCanonical?, Json.parse?_compact height, Option.map_some,
      canonical_toJson represents.canonical]
  refine ⟨t.toJson.compact, t.toSortedJson, ?_, ?_, ?_, tree⟩
  · rw [toJsonText, encoded]
    rfl
  · rw [ofJsonText, tree]
    exact represents.decodes _ (Nat.lt_succ_of_le nested)
  · rw [encode, encoded]
    rfl

/-- A map of an array at both ends of the integers and a whole float, and of a map with a text that
needs escapes. -/
def nestedSample : Value :=
  .map [("list", .array [.int Int64.minValue, .int Int64.maxValue, .float 2.0, .float 2.5, .unit]),
    ("text", .map [("", .str "\"é\n\x01"), ("off", .bool false)])]

theorem nestedSample_persists :
    nestedSample.Storable ∧ nestedSample.nesting ≤ ValueError.maxDepth ∧
      ∃ text tree, toJsonText nestedSample = .ok text ∧ ofJsonText text = .ok nestedSample ∧
        encode nestedSample = .ok tree ∧ Json.parseCanonical? text = some tree := by
  have finite : Number.Binary64.isFinite 2.0 = true ∧ Number.Binary64.isFinite 2.5 = true := by
    decide +kernel
  have storable : nestedSample.Storable :=
    ⟨List.pairwise_pair.2 (by decide +kernel),
      ⟨trivial, trivial, finite.1, finite.2, trivial, trivial⟩,
      ⟨List.pairwise_pair.2 (by decide +kernel), trivial, trivial, trivial⟩, trivial⟩
  have nested : nestedSample.nesting ≤ ValueError.maxDepth := by decide
  exact ⟨storable, nested, ofJsonText_toJsonText nestedSample storable nested⟩

end GuildSandbox.Value

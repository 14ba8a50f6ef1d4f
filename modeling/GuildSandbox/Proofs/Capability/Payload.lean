import GuildSandbox.Capability.Payload
import GuildSandbox.Proofs.Value.Views
import Mathlib.Data.List.Forall2

/-!
Which maps describe an answer.

A map is read field by field: each field is silent when it is missing or unit, and otherwise has one
type, but for the embeds, which are one map or several in an array. Main statement: exactly the maps
that describe a payload are read, as the payload that they describe. An array of embeds is read with
whatever is in it, so that an embed may be read that is no object.
-/

set_option autoImplicit false
set_option relaxedAutoImplicit false

namespace GuildSandbox

namespace Value

mutual

private theorem toPlainAt_of_deeper : (v : Value) → ∀ {depth fewer : Nat}
    {j : Json}, fewer ≤ depth →
    toPlainAt depth v = .ok j → toPlainAt fewer v = .ok j
  | .unit, depth, fewer, j, order, written | .bool _, depth, fewer, j, order, written
  | .int _, depth, fewer, j, order, written | .str _, depth, fewer, j, order, written
  | .float _, depth, fewer, j, order, written | .char _, depth, fewer, j, order, written
  | .blob _, depth, fewer, j, order, written | .fn _ _, depth, fewer, j, order, written
  | .range _ _ _, depth, fewer, j, order, written | .view _, depth, fewer, j, order, written => by
    rw [toPlainAt] at written ⊢
    split at written
    · cases written
    · rw [if_neg (by omega)]
      exact written
  | .array items, depth, fewer, j, order, written => by
    rw [toPlainAt] at written ⊢
    split at written
    · cases written
    · obtain ⟨trees, each, rfl⟩ := exists_ok_of_map written
      rw [if_neg (by omega), toPlainItems_of_deeper items (Nat.succ_le_succ order) each]
      rfl
  | .map entries, depth, fewer, j, order, written => by
    rw [toPlainAt] at written ⊢
    split at written
    · cases written
    · obtain ⟨fields, each, rfl⟩ := exists_ok_of_map written
      rw [if_neg (by omega), toPlainEntries_of_deeper entries (Nat.succ_le_succ order) each]
      rfl

private theorem toPlainItems_of_deeper : (items : List Value) → ∀ {depth fewer : Nat}
    {trees : List Json}, fewer ≤ depth → toPlainItems depth items = .ok trees →
      toPlainItems fewer items = .ok trees
  | [], _, _, _, _, written => written
  | item :: rest, depth, fewer, trees, order, written => by
    rw [toPlainItems] at written ⊢
    obtain ⟨first, head, written⟩ := exists_ok_of_bind written
    obtain ⟨others, tail, made⟩ := exists_ok_of_bind written
    rw [toPlainAt_of_deeper item order head, toPlainItems_of_deeper rest order tail]
    exact made

private theorem toPlainEntries_of_deeper : (entries : List (String × Value)) →
    ∀ {depth fewer : Nat} {fields : List (String × Json)}, fewer ≤ depth →
      toPlainEntries depth entries = .ok fields → toPlainEntries fewer entries = .ok fields
  | [], _, _, _, _, written => written
  | (key, item) :: rest, depth, fewer, fields, order, written => by
    rw [toPlainEntries] at written ⊢
    obtain ⟨first, head, written⟩ := exists_ok_of_bind written
    obtain ⟨others, tail, made⟩ := exists_ok_of_bind written
    rw [toPlainAt_of_deeper item order head, toPlainEntries_of_deeper rest order tail]
    exact made

end

private theorem forall₂_of_toPlainItems {depth : Nat} {items : List Value} {trees : List Json}
    (written : toPlainItems depth items = .ok trees) :
    List.Forall₂ (fun item tree => item.toPlainJson = .ok tree) items trees := by
  induction items generalizing trees with
  | nil =>
    cases written
    exact .nil
  | cons item rest ih =>
    rw [toPlainItems] at written
    obtain ⟨first, head, written⟩ := exists_ok_of_bind written
    obtain ⟨others, tail, made⟩ := exists_ok_of_bind written
    cases made
    exact .cons (toPlainAt_of_deeper item (Nat.zero_le depth) head) (ih tail)

inductive SameShape : Value → Json → Prop
  | array {items : List Value} {trees : List Json}
    (each : List.Forall₂ (fun item tree => item.toPlainJson = .ok tree) items trees) :
    SameShape (.array items) (.arr trees)
  | map (entries : Dict Value) (fields : List (String × Json)) :
    SameShape (.map entries) (.obj fields)
  | scalar {v : Value} {j : Json} (no_array : ∀ items, v ≠ .array items)
    (no_map : ∀ entries, v ≠ .map entries) (no_list : ∀ trees, j ≠ .arr trees)
    (no_object : ∀ fields, j ≠ .obj fields) : SameShape v j

private theorem sameShape_of_toPlainJson {v : Value} {j : Json} (written : v.toPlainJson = .ok j) :
    SameShape v j := by
  cases v with
  | array items =>
    rw [toPlainJson, toPlainAt, if_neg (Nat.not_lt_zero _)] at written
    obtain ⟨trees, each, rfl⟩ := exists_ok_of_map written
    exact .array (forall₂_of_toPlainItems each)
  | map entries =>
    rw [toPlainJson, toPlainAt, if_neg (Nat.not_lt_zero _)] at written
    obtain ⟨fields, -, rfl⟩ := exists_ok_of_map written
    exact .map entries fields
  | float f =>
    rw [toPlainJson, toPlainAt, if_neg (Nat.not_lt_zero _), finiteNumber] at written
    split at written <;> cases written
    refine .scalar ?_ ?_ ?_ ?_ <;> intro _ same <;> cases same
  | unit | bool _ | int _ | str _ =>
    cases written
    refine .scalar ?_ ?_ ?_ ?_ <;> intro _ same <;> cases same
  | char _ | blob _ | fn _ _ | range _ _ _ | view _ => cases written

def IsMap (v : Value) : Prop := ∃ entries, v = .map entries

private theorem isMap_iff_of_toPlainJson {v : Value} {j : Json} (written : v.toPlainJson = .ok j) :
    v.IsMap ↔ ∃ fields, j = .obj fields := by
  cases sameShape_of_toPlainJson written with
  | array each => exact iff_of_false nofun nofun
  | map entries fields => exact iff_of_true ⟨entries, rfl⟩ ⟨fields, rfl⟩
  | scalar _ no_map _ no_object =>
    exact iff_of_false (fun ⟨entries, isMap⟩ => no_map entries isMap)
      fun ⟨fields, isObject⟩ => no_object fields isObject

private theorem forall_isMap_iff {items : List Value} {trees : List Json}
    (each : List.Forall₂ (fun item tree => item.toPlainJson = .ok tree) items trees) :
    (∀ item ∈ items, item.IsMap) ↔ ∀ tree ∈ trees, ∃ fields, tree = .obj fields := by
  induction each with
  | nil => exact iff_of_true nofun nofun
  | cons head _ ih =>
    rw [List.forall_mem_cons, List.forall_mem_cons, isMap_iff_of_toPlainJson head, ih]

end Value

namespace Fields

variable {entries : Dict Value} {name : String}

def Silent (entries : Dict Value) (name : String) : Prop :=
  ∀ v, Dict.find? name entries = some v → v = .unit

private theorem silent_iff : Silent entries name ↔
    Dict.find? name entries = none ∨ Dict.find? name entries = some .unit := by
  rw [Silent]
  cases Dict.find? name entries with
  | none => simp
  | some v => simp

inductive Text (entries : Dict Value) (name : String) : Option String → Prop
  | silent (silent : Silent entries name) : Text entries name none
  | said {s : String} (found : Dict.find? name entries = some (.str s)) :
    Text entries name (some s)

inductive Truth (entries : Dict Value) (name : String) (default : Bool) : Bool → Prop
  | silent (silent : Silent entries name) : Truth entries name default default
  | said {b : Bool} (found : Dict.find? name entries = some (.bool b)) :
    Truth entries name default b

private theorem rejectUnknown_eq_ok_iff {allowed : List String} :
    rejectUnknown entries allowed = .ok () ↔ ∀ key ∈ Dict.keys entries, key ∈ allowed := by
  rw [rejectUnknown]
  split
  next key found =>
    have unknown : key ∉ allowed := by simpa using List.find?_some found
    exact iff_of_false nofun fun known => unknown (known key (List.mem_of_find?_eq_some found))
  next none_found =>
    have known := List.find?_eq_none.mp none_found
    exact iff_of_true rfl (by simpa using known)

private theorem text?_eq_ok_iff {s : Option String} :
    text? entries name = .ok s ↔ Text entries name s := by
  constructor
  · intro read
    rw [text?] at read
    split at read
    next missing =>
      cases read
      exact .silent (silent_iff.mpr (.inl missing))
    next unit =>
      cases read
      exact .silent (silent_iff.mpr (.inr unit))
    next found =>
      cases read
      exact .said found
    next => cases read
  · intro content
    cases content with
    | said found => rw [text?, found]
    | silent silent =>
      obtain missing | unit := silent_iff.mp silent
      · rw [text?, missing]
      · rw [text?, unit]

private theorem bool_eq_ok_iff {default b : Bool} :
    bool entries name default = .ok b ↔ Truth entries name default b := by
  constructor
  · intro read
    rw [bool] at read
    split at read
    next missing =>
      cases read
      exact .silent (silent_iff.mpr (.inl missing))
    next unit =>
      cases read
      exact .silent (silent_iff.mpr (.inr unit))
    next found =>
      cases read
      exact .said found
    next => cases read
  · intro content
    cases content with
    | said found => rw [bool, found]
    | silent silent =>
      obtain missing | unit := silent_iff.mp silent
      · rw [bool, missing]
      · rw [bool, unit]

end Fields

namespace ResponsePayload

variable {Element : Value → Prop} {entries : Dict Value}

/-- The embeds that a map describes, each item of an array being an element. -/
inductive Embeds (Element : Value → Prop) (entries : Dict Value) : List Json → Prop
  | none (silent : Fields.Silent entries "embeds") : Embeds Element entries []
  | one {fields : Dict Value} {embed : Json}
    (found : Dict.find? "embeds" entries = some (.map fields))
    (written : (Value.map fields).toPlainJson = .ok embed) : Embeds Element entries [embed]
  | several {items : List Value} {embeds : List Json}
    (found : Dict.find? "embeds" entries = some (.array items))
    (elements : ∀ item ∈ items, Element item)
    (convertible : ∃ j, (Value.array items).toPlainJson = .ok j)
    (each : List.Forall₂ (fun item embed => item.toPlainJson = .ok embed) items embeds) :
    Embeds Element entries embeds

/-- The map describes the payload, each item of an array of embeds being an element. -/
structure Describes (Element : Value → Prop) (entries : Dict Value) (p : ResponsePayload) :
    Prop where
  known : ∀ key ∈ Dict.keys entries, key ∈ ["content", "ephemeral", "embeds"]
  content : Fields.Text entries "content" p.content
  ephemeral : Fields.Truth entries "ephemeral" true p.ephemeral
  embeds : Embeds Element entries p.embeds

private theorem embedsOf_eq_ok_iff {embeds : List Json} :
    embedsOf entries = .ok embeds ↔ Embeds (fun _ => True) entries embeds := by
  constructor
  · intro read
    rw [embedsOf] at read
    split at read
    next missing =>
      cases read
      exact .none (Fields.silent_iff.mpr (.inl missing))
    next unit =>
      cases read
      exact .none (Fields.silent_iff.mpr (.inr unit))
    next v _ found =>
      obtain ⟨j, written, made⟩ := exists_ok_of_bind read
      have written : v.toPlainJson = .ok j := eq_ok_of_mapError written
      cases Value.sameShape_of_toPlainJson written with
      | array each =>
        cases made
        exact .several found (fun _ _ => trivial) ⟨_, written⟩ each
      | map fields object =>
        cases made
        exact .one found written
      | scalar _ _ no_list no_object =>
        cases j with
        | arr trees => exact absurd rfl (no_list trees)
        | obj fields => exact absurd rfl (no_object fields)
        | _ => cases made
  · intro described
    cases described with
    | none silent =>
      obtain missing | unit := Fields.silent_iff.mp silent
      · rw [embedsOf, missing]
      · rw [embedsOf, unit]
    | one found written =>
      cases Value.sameShape_of_toPlainJson written with
      | map fields object =>
        rw [embedsOf, found]
        simp only [written]
        rfl
      | scalar _ no_map => exact absurd rfl (no_map _)
    | several found elements convertible each =>
      obtain ⟨j, written⟩ := convertible
      cases Value.sameShape_of_toPlainJson written with
      | array read =>
        have functional : Relator.RightUnique fun (item : Value) embed =>
            item.toPlainJson = .ok embed := by
          intro item embed other written same
          exact Except.ok.inj (written.symm.trans same)
        cases List.right_unique_forall₂' functional read each
        rw [embedsOf, found]
        simp only [written]
        rfl
      | scalar no_array => exact absurd rfl (no_array _)

private theorem Embeds.restrict {embeds : List Json} (read : Embeds (fun _ => True) entries embeds)
    (objects : ∀ embed ∈ embeds, ∃ fields, embed = .obj fields) :
    Embeds Value.IsMap entries embeds := by
  cases read with
  | none silent => exact .none silent
  | one found written => exact .one found written
  | several found _ convertible each =>
    exact .several found ((Value.forall_isMap_iff each).mpr objects) convertible each

private theorem Embeds.relax {embeds : List Json} (described : Embeds Element entries embeds) :
    Embeds (fun _ => True) entries embeds := by
  cases described with
  | none silent => exact .none silent
  | one found written => exact .one found written
  | several found _ convertible each =>
    exact .several found (fun _ _ => trivial) convertible each

private theorem Embeds.objects {embeds : List Json}
    (described : Embeds Value.IsMap entries embeds) :
    ∀ embed ∈ embeds, ∃ fields, embed = .obj fields := by
  cases described with
  | none => exact nofun
  | one found written =>
    have object := (Value.isMap_iff_of_toPlainJson written).mp ⟨_, rfl⟩
    exact List.forall_mem_singleton.mpr object
  | several _ elements _ each => exact (Value.forall_isMap_iff each).mp elements

private theorem ofMap_eq_ok_iff {p : ResponsePayload} :
    ofMap entries = .ok p ↔ Describes (fun _ => True) entries p := by
  constructor
  · intro read
    obtain ⟨_, known, read⟩ := exists_ok_of_bind read
    obtain ⟨ephemeral, truth, read⟩ := exists_ok_of_bind read
    obtain ⟨embeds, listed, read⟩ := exists_ok_of_bind read
    obtain ⟨content, text, made⟩ := exists_ok_of_bind read
    cases made
    exact {
      known := Fields.rejectUnknown_eq_ok_iff.mp known
      content := Fields.text?_eq_ok_iff.mp text
      ephemeral := Fields.bool_eq_ok_iff.mp truth
      embeds := embedsOf_eq_ok_iff.mp listed }
  · intro described
    rw [ofMap, Fields.rejectUnknown_eq_ok_iff.mpr described.known,
      Fields.bool_eq_ok_iff.mpr described.ephemeral, embedsOf_eq_ok_iff.mpr described.embeds,
      Fields.text?_eq_ok_iff.mpr described.content]
    rfl

/--
Exactly the maps that describe a payload are read, as the payload that they describe, where any
values may be listed as embeds; and a map whose listed embeds are all maps is one that is read with
an object for each of its embeds.
-/
theorem ofMap_exact (entries : Dict Value) (p : ResponsePayload) :
    (ofMap entries = .ok p ↔ Describes (fun _ => True) entries p) ∧
      (Describes Value.IsMap entries p ↔
        ofMap entries = .ok p ∧ ∀ embed ∈ p.embeds, ∃ fields, embed = .obj fields) := by
  refine ⟨ofMap_eq_ok_iff, ?_, ?_⟩
  · intro described
    have read : Describes (fun _ => True) entries p :=
      { described with embeds := described.embeds.relax }
    exact ⟨ofMap_eq_ok_iff.mpr read, described.embeds.objects⟩
  · rintro ⟨read, objects⟩
    have described := ofMap_eq_ok_iff.mp read
    exact { described with embeds := described.embeds.restrict objects }

/-- A number that is listed as an embed is read, though it is no map. -/
theorem listed_number_accepted :
    ¬ ∀ entries p, ofMap entries = .ok p → Describes Value.IsMap entries p := by
  intro documented
  have read : ofMap [("embeds", .array [.int 1])] =
      .ok { embeds := [.int64 1] } := by
    rfl
  have objects := (documented _ _ read).embeds.objects
  obtain ⟨fields, object⟩ := objects (.int64 1) (List.mem_singleton_self _)
  cases object

end ResponsePayload

end GuildSandbox

import GuildSandbox.Json.Record
import GuildSandbox.Proofs.Value.Persistence

/-!
Formats that are stable under re-encoding.

Reading is lenient: unknown fields are skipped, absent ones have defaults, `null` may stand for an
absent value, an array may stand for an object, and a table may name a key twice. Writing is not.
A format is stable when whatever was read is written as a tree that reads as the same value. This
is shown for the kinds of values and the kinds of fields that records are made of.
-/

set_option autoImplicit false
set_option relaxedAutoImplicit false

namespace GuildSandbox

universe u

namespace Json

variable {α : Type u}

/-- What was read from any tree is read again from the tree it is written as. -/
def Stable (read : Json → Option α) (write : α → Json) : Prop :=
  ∀ j a, read j = some a → read (write a) = some a

def reencode (read : Json → Option α) (write : α → Json) (j : Json) : Option Json :=
  (read j).map write

def Idempotent (read : Json → Option α) (write : α → Json) : Prop :=
  ∀ j again, reencode read write j = some again → reencode read write again = some again

/-- What was read is read again from what is written, and so is written in the same way again. -/
structure Settles (read : Json → Option α) (write : α → Json) : Prop where
  stable : Stable read write
  idempotent : Idempotent read write

theorem Stable.settles {read : Json → Option α} {write : α → Json} (h : Stable read write) :
    Settles read write where
  stable := h
  idempotent := by
    intro j again written
    obtain ⟨a, readA, rfl⟩ := Option.map_eq_some_iff.1 written
    rw [reencode, h j a readA, Option.map_some]

def NullFree (read : Json → Option α) (write : α → Json) : Prop :=
  ∀ j a, j ≠ .null → read j = some a → write a ≠ .null

theorem nullFree_of_forall_ne {read : Json → Option α} {write : α → Json}
    (h : ∀ a, write a ≠ .null) : NullFree read write :=
  fun _ a _ _ => h a

theorem stable_str : Stable toStr? .str := fun _ _ _ => rfl

private theorem nullFree_str :
    NullFree toStr? .str := nullFree_of_forall_ne fun _ => Json.noConfusion

theorem stable_bool : Stable toBool? .bool := fun _ _ _ => rfl

theorem stable_int64 : Stable toInt64? int64 := fun _ n _ => Number.Binary64.int64?_toInt n

theorem stable_uint64 : Stable uint64 ofUInt64 := by
  intro _ n _
  simp [uint64, ofUInt64, JsonNumber.ofUInt64]

theorem stable_oneOf {choices : List (String × α)} {name : α → String}
    (h : ∀ a, Dict.find? (name a) choices = some a) :
    Stable (oneOf choices) fun a => .str (name a) :=
  fun _ a _ => h a

private theorem canonicalFields_eq_self {fields : List (String × Json)}
    (h : ∀ p ∈ fields, p.2.canonical = p.2) : canonicalFields fields = fields := by
  induction fields with
  | nil => rfl
  | cons p rest ih =>
    rw [canonicalFields, h p List.mem_cons_self, ih fun q hq => h q (List.mem_cons_of_mem _ hq)]

mutual

private theorem canonical_canonical : (j : Json) → j.canonical.canonical = j.canonical
  | .null | .bool _ | .num _ | .str _ => rfl
  | .arr items => by rw [canonical, canonical, canonicalItems_canonicalItems items]
  | .obj fields => by
    -- The sorted fields are some of the fields, each canonical already, in key order.
    have kept : canonicalFields (Dict.ofPairs (canonicalFields fields)) =
        Dict.ofPairs (canonicalFields fields) :=
      canonicalFields_eq_self fun p hp => canonical_of_mem fields p (Dict.mem_of_mem_ofPairs hp)
    rw [canonical, canonical, kept, Dict.ofPairs_of_ordered (Dict.ordered_ofPairs _)]

private theorem canonicalItems_canonicalItems : (items : List Json) →
    canonicalItems (canonicalItems items) = canonicalItems items
  | [] => rfl
  | item :: rest => by
    rw [canonicalItems, canonicalItems, canonical_canonical item,
      canonicalItems_canonicalItems rest]

private theorem canonical_of_mem : (fields : List (String × Json)) → ∀ p ∈ canonicalFields fields,
    p.2.canonical = p.2
  | [] => by simp [canonicalFields]
  | (name, value) :: rest => by
    intro p hp
    rcases List.mem_cons.1 hp with rfl | later
    · exact canonical_canonical value
    · exact canonical_of_mem rest p later

end

theorem stable_anything : Stable anything id := by
  intro j a read
  cases read
  exact congrArg some (canonical_canonical j)

theorem nullFree_anything : NullFree anything id := by
  intro j a notNull read
  cases read
  cases j <;> simp_all [canonical]

theorem readAll_map {read : Json → Option α} {write : α → Json} {as : List α}
    (h : ∀ a ∈ as, read (write a) = some a) : readAll read (as.map write) = some as := by
  induction as with
  | nil => rfl
  | cons a rest ih =>
    have first := h a List.mem_cons_self
    have others := ih fun b hb => h b (List.mem_cons_of_mem _ hb)
    simp [readAll, first, others]

private theorem exists_read_of_mem_readAll {read : Json → Option α} {items : List Json}
    {as : List α}
    (h : readAll read items = some as) : ∀ a ∈ as, ∃ j ∈ items, read j = some a := by
  induction items generalizing as with
  | nil => cases h; simp
  | cons item rest ih =>
    simp only [readAll, Option.bind_eq_bind, Option.bind_eq_some_iff, Option.pure_def,
      Option.some.injEq] at h
    obtain ⟨first, readFirst, others, readOthers, rfl⟩ := h
    intro a ha
    rcases List.mem_cons.1 ha with rfl | later
    · exact ⟨item, List.mem_cons_self, readFirst⟩
    · obtain ⟨j, there, readJ⟩ := ih readOthers a later
      exact ⟨j, List.mem_cons_of_mem _ there, readJ⟩

private theorem exists_read_of_mem_list {read : Json → Option α} {j : Json} {as : List α}
    (h : list read j = some as) : ∀ a ∈ as, ∃ item, read item = some a := by
  unfold list at h
  split at h
  · intro a ha
    obtain ⟨item, -, readItem⟩ := exists_read_of_mem_readAll h a ha
    exact ⟨item, readItem⟩
  · cases h

def ofList (write : α → Json) (as : List α) : Json := .arr (as.map write)

theorem Stable.list {read : Json → Option α} {write : α → Json} (h : Stable read write) :
    Stable (Json.list read) (ofList write) := by
  intro j as readAs
  refine readAll_map fun a ha => ?_
  obtain ⟨item, readItem⟩ := exists_read_of_mem_list readAs a ha
  exact h item a readItem

private theorem readEntries_map {read : Json → Option α} {write : α → Json} {d : Dict α}
    (h : ∀ p ∈ d, read (write p.2) = some p.2) :
    readEntries read (d.map fun p => (p.1, write p.2)) = some d := by
  induction d with
  | nil => rfl
  | cons p rest ih =>
    have first := h p List.mem_cons_self
    have others := ih fun q hq => h q (List.mem_cons_of_mem _ hq)
    simp [readEntries, first, others]

private theorem exists_read_of_mem_readEntries {read : Json → Option α}
    {fields : List (String × Json)}
    {entries : List (String × α)} (h : readEntries read fields = some entries) :
    ∀ p ∈ entries, ∃ j, read j = some p.2 := by
  induction fields generalizing entries with
  | nil => cases h; simp
  | cons field rest ih =>
    obtain ⟨key, value⟩ := field
    simp only [readEntries, Option.bind_eq_bind, Option.bind_eq_some_iff, Option.pure_def,
      Option.some.injEq] at h
    obtain ⟨first, readFirst, others, readOthers, rfl⟩ := h
    intro p hp
    rcases List.mem_cons.1 hp with rfl | later
    · exact ⟨value, readFirst⟩
    · exact ih readOthers p later

theorem Stable.table {read : Json → Option α} {write : α → Json} (h : Stable read write) :
    Stable (Json.table read) (ofTable write) := by
  intro j d readD
  unfold Json.table at readD
  split at readD
  · obtain ⟨entries, readEntries, rfl⟩ := Option.map_eq_some_iff.1 readD
    have again : Json.readEntries read
        ((Dict.ofPairs entries).map fun p => (p.1, write p.2)) = some (Dict.ofPairs entries) := by
      refine readEntries_map fun p hp => ?_
      obtain ⟨item, readItem⟩ :=
        exists_read_of_mem_readEntries readEntries p (Dict.mem_of_mem_ofPairs hp)
      exact h item p.2 readItem
    rw [ofTable, Json.table, again, Option.map_some,
      Dict.ofPairs_of_ordered (Dict.ordered_ofPairs entries)]
  · cases readD

section Fields

variable {read : Json → Option α} {write : α → Json} {field : Option Json}

theorem Stable.required (h : Stable read write) {a : α} (readA : required read field = some a) :
    Json.required read (some (write a)) = some a := by
  cases field with
  | none => cases readA
  | some j => exact h j a readA

theorem Stable.withDefault (h : Stable read write) {default a : α}
    (readDefault : read (write default) = some default)
    (readA : withDefault default read field = some a) :
    Json.withDefault default read (some (write a)) = some a := by
  cases field with
  | none => cases readA; exact readDefault
  | some j => exact h j a readA

theorem exists_read_of_mem_withDefault {as : List α}
    (h : Json.withDefault [] (Json.list read) field = some as) : ∀ a ∈ as, ∃ j, read j = some a := by
  cases field with
  | none => cases h; simp
  | some j => exact exists_read_of_mem_list h

private theorem nullable_of_ne_null {j : Json} (h : j ≠ .null) : nullable read j =
    (read j).map some := by
  cases j <;> simp_all [nullable]

theorem Stable.optional (h : Stable read write) (nullFree : NullFree read write) {a : Option α}
    (readA : optional read field = some a) : Json.optional read (a.map write) = some a := by
  cases a with
  | none => rfl
  | some a =>
    cases field with
    | none => cases readA
    | some j =>
      by_cases isNull : j = .null
      · cases isNull; cases readA
      · have readJ : (read j).map some = some (some a) := nullable_of_ne_null isNull ▸ readA
        have read : read j = some a := by simpa using readJ
        change nullable _ (write a) = _
        rw [nullable_of_ne_null (nullFree j a isNull read), h j a read, Option.map_some]

theorem optional_str {text : Option String} (read : optional toStr? field = some text) :
    optional toStr? (text.map .str) = some text :=
  stable_str.optional nullFree_str read

theorem within_of_withDefault {low high n : Int} (zero : low ≤ 0 ∧ 0 ≤ high)
    (readN : Json.withDefault 0 (intWithin low high) field = some n) : low ≤ n ∧ n ≤ high := by
  cases field with
  | none => cases readN; exact zero
  | some j =>
    change intWithin low high j = some n at readN
    unfold intWithin at readN
    split at readN
    · split at readN
      · cases readN; assumption
      · cases readN
    · cases readN

theorem withDefault_intWithin {low high n default : Int} {word : UInt64}
    (value : (word.toNat : Int) = n) (within : low ≤ n ∧ n ≤ high) :
    Json.withDefault default (intWithin low high) (some (ofUInt64 word)) = some n := by
  change (if low ≤ (word.toNat : Int) ∧ (word.toNat : Int) ≤ high then _ else _) = _
  rw [value, if_pos within]

end Fields

def written : List (String × Option Json) → List (String × Json)
  | [] => []
  | (name, value) :: rest => whenPresent name id value ++ written rest

@[simp]
theorem written_nil : written [] = [] := rfl

@[simp]
theorem written_none (name : String) (rest : List (String × Option Json)) :
    written ((name, none) :: rest) = written rest := rfl

@[simp]
theorem written_some (name : String) (value : Json) (rest : List (String × Option Json)) :
    written ((name, some value) :: rest) = always name value ++ written rest := rfl

@[simp]
theorem written_map (name : String) (write : α → Json) (value : Option α)
    (rest : List (String × Option Json)) :
    written ((name, value.map write) :: rest) = whenPresent name write value ++ written rest := by
  cases value <;> rfl

private theorem filter_written_of_notMem {name : String} {fields : List (String × Option Json)}
    (h : name ∉ fields.map Prod.fst) : (written fields).filter (fun p => p.1 = name) = [] := by
  induction fields with
  | nil => rfl
  | cons field rest ih =>
    obtain ⟨other, value⟩ := field
    have differs : other ≠ name := fun same => h (by simp [same])
    have others := ih fun there => h (List.mem_cons_of_mem _ there)
    cases value <;> simp [written, whenPresent, differs, others]

private theorem namedFields?_append {before : List (String × Json)} {names : List String}
    {fields : List (String × Json)} (h : ∀ p ∈ before, p.1 ∉ names) :
    namedFields? (before ++ fields) names = namedFields? fields names := by
  induction names with
  | nil => rfl
  | cons name names ih =>
    have none : before.filter (fun p => p.1 = name) = [] :=
      List.filter_eq_nil_iff.2 fun p hp =>
        by simpa using fun same : p.1 = name => h p hp (by simp [same])
    have others := ih fun p hp there => h p hp (List.mem_cons_of_mem _ there)
    rw [namedFields?, namedFields?, List.filter_append, none, List.nil_append, others]

theorem recordFields?_written {fields : List (String × Option Json)}
    (h : (fields.map Prod.fst).Nodup) :
    recordFields? (fields.map Prod.fst) (.obj (written fields)) = some (fields.map Prod.snd) := by
  change namedFields? (written fields) (fields.map Prod.fst) = some (fields.map Prod.snd)
  induction fields with
  | nil => rfl
  | cons field rest ih =>
    obtain ⟨name, value⟩ := field
    obtain ⟨fresh, distinct⟩ := List.nodup_cons.1 h
    have absent : (written rest).filter (fun p => p.1 = name) = [] :=
      filter_written_of_notMem fresh
    have others : namedFields? (written ((name, value) :: rest)) (rest.map Prod.fst) =
        some (rest.map Prod.snd) := by
      rw [written, namedFields?_append, ih distinct]
      intro p hp
      cases value with
      | none => cases hp
      | some j =>
        cases List.mem_singleton.1 hp
        exact fresh
    rw [List.map_cons, List.map_cons, namedFields?, others]
    cases value <;> simp [written, whenPresent, absent]

/-- A record is stable when the values of its fields read again give the same record. -/
theorem Stable.record {names : List String} {interpret : List (Option Json) → Option α}
    {write : α → Json} (fields : α → List (String × Option Json))
    (writes : ∀ a, write a = .obj (written (fields a)))
    (named : ∀ a, (fields a).map Prod.fst = names) (distinct : names.Nodup)
    (again : ∀ values a, interpret values = some a →
      interpret ((fields a).map Prod.snd) = some a) :
    Stable (fun j => (recordFields? names j).bind interpret) write := by
  intro j a read
  obtain ⟨values, -, interpreted⟩ := Option.bind_eq_some_iff.1 read
  have found : recordFields? names (write a) = some ((fields a).map Prod.snd) := by
    rw [writes, ← named a]
    exact recordFields?_written (named a ▸ distinct)
  change (recordFields? names (write a)).bind interpret = some a
  rw [found, Option.bind_some, again values a interpreted]

end Json

end GuildSandbox

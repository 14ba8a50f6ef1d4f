import GuildSandbox.Proofs.Value.Encodings

set_option autoImplicit false
set_option relaxedAutoImplicit false

namespace GuildSandbox.Value

mutual

def InKeyOrder : Value → Prop
  | .array items => InKeyOrderItems items
  | .map entries => Dict.Ordered entries ∧ InKeyOrderEntries entries
  | _ => True

def InKeyOrderItems : List Value → Prop
  | [] => True
  | item :: rest => InKeyOrder item ∧ InKeyOrderItems rest

def InKeyOrderEntries : List (String × Value) → Prop
  | [] => True
  | (_, item) :: rest => InKeyOrder item ∧ InKeyOrderEntries rest

end

mutual

private theorem storable_of_leaves : (v : Value) → v.InKeyOrder →
    (∀ leaf ∈ v.leaves, leaf.IsScalar) → v.Storable
  | .unit, _, _ | .bool _, _, _ | .int _, _, _ | .str _, _, _ => trivial
  | .float _, _, scalars | .char _, _, scalars | .blob _, _, scalars | .fn _ _, _, scalars
  | .range _ _ _, _, scalars | .view _, _, scalars => scalars _ List.mem_cons_self
  | .array items, ordered, scalars => storableItems_of_leaves items ordered scalars
  | .map entries, ordered, scalars =>
    ⟨ordered.1, storableEntries_of_leaves entries ordered.2 scalars⟩

private theorem storableItems_of_leaves : (items : List Value) → InKeyOrderItems items →
    (∀ leaf ∈ leavesOfItems items, leaf.IsScalar) → StorableItems items
  | [], _, _ => trivial
  | item :: rest, ordered, scalars =>
    have ⟨here, there⟩ := List.forall_mem_append.1 scalars
    ⟨storable_of_leaves item ordered.1 here, storableItems_of_leaves rest ordered.2 there⟩

private theorem storableEntries_of_leaves : (entries : List (String × Value)) →
    InKeyOrderEntries entries → (∀ leaf ∈ leavesOfEntries entries, leaf.IsScalar) →
      StorableEntries entries
  | [], _, _ => trivial
  | (_, item) :: rest, ordered, scalars =>
    have ⟨here, there⟩ := List.forall_mem_append.1 scalars
    ⟨storable_of_leaves item ordered.1 here, storableEntries_of_leaves rest ordered.2 there⟩

end

theorem storable_of_toJsonText {v : Value} {text : String} (ordered : v.InKeyOrder)
    (written : toJsonText v = .ok text) : v.Storable ∧ v.nesting ≤ ValueError.maxDepth := by
  obtain ⟨t, encoded, -⟩ := exists_ok_of_map written
  obtain ⟨scalars, fits⟩ := (exists_encodeAt_iff v 0).1 ⟨t, encoded⟩
  exact ⟨storable_of_leaves v ordered scalars, by omega⟩

theorem ofJsonText_of_toJsonText {v : Value} {text : String} (ordered : v.InKeyOrder)
    (written : toJsonText v = .ok text) : ofJsonText text = .ok v := by
  obtain ⟨storable, nested⟩ := storable_of_toJsonText ordered written
  obtain ⟨text', -, written', back, -⟩ := ofJsonText_toJsonText v storable nested
  cases written.symm.trans written'
  exact back

end GuildSandbox.Value

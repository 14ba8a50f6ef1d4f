set_option autoImplicit false
set_option relaxedAutoImplicit false

namespace GuildSandbox

universe u v

/-- Pairs of a key and a value. The operations below keep the keys strictly increasing. -/
abbrev Dict (α : Type u) := List (String × α)

namespace Dict

variable {α : Type u} {β : Type v}

def Ordered (d : Dict α) : Prop := d.Pairwise fun a b => a.1 < b.1

def find? (key : String) : Dict α → Option α
  | [] => none
  | (k, v) :: rest => if k = key then some v else find? key rest

def insert (key : String) (value : α) : Dict α → Dict α
  | [] => [(key, value)]
  | (k, v) :: rest =>
    if key < k then (key, value) :: (k, v) :: rest
    else if k = key then (key, value) :: rest
    else (k, v) :: insert key value rest

def erase (key : String) (d : Dict α) : Dict α := d.filter fun p => p.1 ≠ key

/-- The pairs inserted one after the other, so that the last value of a repeated key stays. -/
def ofPairs (pairs : List (String × α)) : Dict α :=
  pairs.foldl (fun d p => insert p.1 p.2 d) []

def keys (d : Dict α) : List String := d.map Prod.fst

def contains (key : String) (d : Dict α) : Bool := (find? key d).isSome

private theorem lt_of_not_lt_of_ne {a b : String} (h : ¬ a < b) (hn : b ≠ a) : b < a :=
  Std.lt_of_le_of_ne (String.not_lt.1 h) hn

theorem find?_insert_self (key : String) (value : α) (d : Dict α) :
    find? key (insert key value d) = some value := by
  induction d with
  | nil => simp [insert, find?]
  | cons p rest ih =>
    obtain ⟨k, v⟩ := p
    by_cases hlt : key < k
    · simp [insert, hlt, find?]
    · by_cases hk : k = key
      · rw [insert, if_neg hlt, if_pos hk, find?, if_pos rfl]
      · rw [insert, if_neg hlt, if_neg hk, find?, if_neg hk, ih]

theorem find?_insert_of_ne {key other : String} (h : other ≠ key) (value : α) (d : Dict α) :
    find? other (insert key value d) = find? other d := by
  induction d with
  | nil => simp [insert, find?, Ne.symm h]
  | cons p rest ih =>
    obtain ⟨k, v⟩ := p
    by_cases hlt : key < k
    · simp [insert, hlt, find?, Ne.symm h]
    · by_cases hk : k = key
      · have hother : ¬ k = other := fun e => h (e.symm.trans hk)
        rw [insert, if_neg hlt, if_pos hk, find?, find?, if_neg (Ne.symm h), if_neg hother]
      · rw [insert, if_neg hlt, if_neg hk, find?, find?, ih]

theorem mem_insert {key : String} {value : α} {d : Dict α} {p : String × α}
    (h : p ∈ insert key value d) : p = (key, value) ∨ p ∈ d := by
  induction d with
  | nil => simpa [insert] using h
  | cons q rest ih =>
    obtain ⟨k, v⟩ := q
    simp only [insert] at h
    split at h
    · simpa using h
    · split at h
      · rcases List.mem_cons.1 h with h | h
        · exact .inl h
        · exact .inr (List.mem_cons_of_mem _ h)
      · rcases List.mem_cons.1 h with h | h
        · exact .inr (h ▸ List.mem_cons_self)
        · exact (ih h).imp_right (List.mem_cons_of_mem _)

theorem ordered_insert {key : String} {value : α} {d : Dict α} (h : Ordered d) :
    Ordered (insert key value d) := by
  induction d with
  | nil => simp [insert, Ordered]
  | cons p rest ih =>
    obtain ⟨k, v⟩ := p
    obtain ⟨hall, hrest⟩ := List.pairwise_cons.1 h
    simp only [insert]
    split
    next hlt =>
      refine List.pairwise_cons.2 ⟨fun q hq => ?_, h⟩
      rcases List.mem_cons.1 hq with rfl | hq
      · exact hlt
      · exact String.lt_trans hlt (hall q hq)
    next hlt =>
      split
      next hk =>
        subst hk
        exact List.pairwise_cons.2 ⟨hall, hrest⟩
      next hk =>
        refine List.pairwise_cons.2 ⟨fun q hq => ?_, ih hrest⟩
        rcases mem_insert hq with rfl | hq
        · exact lt_of_not_lt_of_ne hlt hk
        · exact hall q hq

theorem ordered_erase {key : String} {d : Dict α} (h : Ordered d) : Ordered (erase key d) :=
  List.Pairwise.filter _ h

theorem ordered_ofPairs (pairs : List (String × α)) : Ordered (ofPairs pairs) := by
  suffices ∀ d : Dict α, Ordered d → Ordered (pairs.foldl (fun d p => insert p.1 p.2 d) d) from
    this [] List.Pairwise.nil
  induction pairs with
  | nil => exact fun _ h => h
  | cons p rest ih => exact fun d h => ih _ (ordered_insert h)

theorem mem_of_mem_ofPairs {pairs : List (String × α)} {p : String × α} (h : p ∈ ofPairs pairs) :
    p ∈ pairs := by
  suffices ∀ d : Dict α, p ∈ pairs.foldl (fun d p => insert p.1 p.2 d) d → p ∈ d ∨ p ∈ pairs from
    (this [] h).resolve_left List.not_mem_nil
  clear h
  induction pairs with
  | nil => exact fun _ h => .inl h
  | cons q rest ih =>
    intro d h
    rcases ih _ h with there | later
    · rcases mem_insert there with rfl | before
      · exact .inr List.mem_cons_self
      · exact .inl before
    · exact .inr (List.mem_cons_of_mem _ later)

private theorem insert_of_forall_lt {key : String} {d : Dict α} (h : ∀ p ∈ d, p.1 < key)
    (value : α) :
    insert key value d = d ++ [(key, value)] := by
  induction d with
  | nil => rfl
  | cons p rest ih =>
    obtain ⟨k, v⟩ := p
    have hlt : k < key := h (k, v) List.mem_cons_self
    have hne : ¬ k = key := fun e => String.lt_irrefl key (e ▸ hlt)
    rw [insert, if_neg (String.lt_asymm hlt), if_neg hne,
      ih fun p hp => h p (List.mem_cons_of_mem _ hp), List.cons_append]

theorem ofPairs_of_ordered {pairs : List (String × α)} (h : Ordered pairs) :
    ofPairs pairs = pairs := by
  suffices ∀ d : Dict α, Ordered (d ++ pairs) →
      pairs.foldl (fun d p => insert p.1 p.2 d) d = d ++ pairs from this [] h
  induction pairs with
  | nil => simp
  | cons p rest ih =>
    intro d ordered
    have below : ∀ q ∈ d, q.1 < p.1 := fun q hq =>
      (List.pairwise_append.1 ordered).2.2 q hq p List.mem_cons_self
    rw [List.foldl_cons, insert_of_forall_lt below, ih (List.pairwise_cons.1 h).2 _ (by simpa)]
    simp

theorem find?_eq_some_iff {key : String} {value : α} {d : Dict α} (h : Ordered d) :
    find? key d = some value ↔ (key, value) ∈ d := by
  induction d with
  | nil => simp [find?]
  | cons p rest ih =>
    obtain ⟨k, v⟩ := p
    obtain ⟨hall, hrest⟩ := List.pairwise_cons.1 h
    by_cases hk : k = key
    · subst hk
      have absent : (k, value) ∉ rest := fun hm => String.lt_irrefl k (hall _ hm)
      simp [find?, absent, eq_comm]
    · rw [find?, if_neg hk, ih hrest, List.mem_cons]
      simp [Ne.symm hk]

theorem find?_filter {d : Dict α} (h : Ordered d) (key : String) (p : String × α → Bool) :
    find? key (d.filter p) = (find? key d).filter fun value => p (key, value) := by
  have hp : Ordered (d.filter p) := List.Pairwise.filter _ h
  ext value
  rw [find?_eq_some_iff hp, List.mem_filter, Option.filter_eq_some_iff, find?_eq_some_iff h]

theorem erase_of_find?_eq_none {key : String} {d : Dict α} (h : Ordered d)
    (absent : find? key d = none) : erase key d = d := by
  refine List.filter_eq_self.2 fun p hp => ?_
  have hne : p.1 ≠ key := by
    rintro rfl
    rw [(find?_eq_some_iff h).2 hp] at absent
    exact absurd absent (by simp)
  simp [hne]

theorem find?_eq_none_iff {key : String} {d : Dict α} : find? key d = none ↔ key ∉ keys d := by
  induction d with
  | nil => simp [find?, keys]
  | cons p rest ih =>
    obtain ⟨k, v⟩ := p
    by_cases hk : k = key
    · simp [find?, keys, hk]
    · simpa [find?, keys, hk, Ne.symm hk] using ih

/-- A look-up in a dictionary in which every key has the value that a function gives it. -/
theorem find?_ofPairs_map (key : String) (value : String → α) (names : List String) :
    find? key (ofPairs (names.map fun name => (name, value name))) =
      if key ∈ names then some (value key) else none := by
  suffices ∀ d : Dict α,
      find? key ((names.map fun name => (name, value name)).foldl (fun d p => insert p.1 p.2 d) d) =
        if key ∈ names then some (value key) else find? key d from this []
  induction names with
  | nil => simp
  | cons name rest ih =>
    intro d
    rw [List.map_cons, List.foldl_cons, ih]
    by_cases hk : key = name
    · subst hk
      simp [find?_insert_self]
    · simp [hk, find?_insert_of_ne hk]

theorem ordered_iff_keys {d : Dict α} : Ordered d ↔ d.keys.Pairwise (· < ·) := by
  rw [Ordered, keys, List.pairwise_map]

end Dict

end GuildSandbox

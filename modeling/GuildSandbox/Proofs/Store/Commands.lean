import GuildSandbox.Proofs.Store.Holding

set_option autoImplicit false
set_option relaxedAutoImplicit false

namespace GuildSandbox

open Time (Instant)

private theorem Time.Instant.valid_addMillis? {t sum : Instant} {millis : Nat}
    (added : t.addMillis? millis = some sum) : sum.Valid := by
  unfold addMillis? at added
  split at added
  · cases added
  · simp only at added
    split at added
    next inside =>
      cases added
      have small := Nat.mod_lt (t.nanos + millis % 1000 * 1000000) (y := 1000000000) (by decide)
      exact ⟨inside, by simp only; omega, fun long => absurd long (by simp only; omega)⟩
    next => cases added

def Keyspace.Untouched (now : Instant) (space left : Keyspace) : Prop :=
  left = space ∨ left = space.purge now

namespace Keyspace

variable {space : Keyspace} {now : Instant}

theorem Untouched.get?_of_le {left : Keyspace} (untouched : Untouched now space left)
    (ordered : Dict.Ordered space) {t : Instant} (order : now ≤ t) (key : String) :
    left.get? key t = space.get? key t := by
  rcases untouched with rfl | rfl
  · rfl
  · rw [get?_purge ordered, get?_filter_of_le order]

@[simp] theorem value_revised (guild key text : String) (now : Instant) (found : Option Entry) :
    (revised guild key text now found).value = text := by
  cases found <;> rfl

@[simp] theorem value_succeeding (entry : Entry) (found : Option Entry) :
    (succeeding entry found).value = entry.value := by
  cases found <;> rfl

end Keyspace

namespace StoreHandle

variable {h : StoreHandle} {key : String} {now : Instant}

def entryOf (h : StoreHandle) (key text : String) (lifetime : Option Nat) (now : Instant) : Entry :=
  { guild := h.guild, key := key, value := text, expiresAt := expiry now lifetime
    createdAt := now, updatedAt := now }

def added (key : String) (delta : Int64) : Value → Except StoreError Value
  | .int n =>
    match Number.Binary64.int64? (n.toInt + delta.toInt) with
    | some sum => .ok (.int sum)
    | none => .error (.overflow key)
  | .float f => .ok (.float (f + Number.Binary64.ofInt delta.toInt))
  | value => .error (.typeMismatch key value.typeName)

theorem increased_some {entry : Entry} {value : Value} (reads : valueOf entry = .ok value)
    (key : String) (delta : Int64) : increased key delta (some entry) = added key delta value := by
  rw [increased, reads]
  cases value <;> rfl

def sumText (key : String) (delta : Int64) (current : Option Entry) : Except StoreError String :=
  increased key delta current >>= valueText

theorem valid_entryOf (h : StoreHandle) (key text : String) (lifetime : Option Nat)
    (instant : now.Valid) : (h.entryOf key text lifetime now).Valid := by
  refine ⟨fun t expires => ?_, instant, instant⟩
  obtain ⟨millis, -, added⟩ := Option.bind_eq_some_iff.1 expires
  exact Time.Instant.valid_addMillis? added

theorem set_cases (h : StoreHandle) (key : String) (value : Value) (lifetime : Option Nat)
    (now : Instant) :
    (∃ e, h.set key value lifetime now = .error e) ∨
      ∃ text, value.toJsonText = .ok text ∧ key.utf8ByteSize ≤ h.limits.maxKeyLength ∧
        text.utf8ByteSize ≤ h.limits.maxValueLength ∧
        h.set key value lifetime now =
          .ok (Store.set (h.entryOf key text lifetime now) h.limits.maxKeys) := by
  cases made : h.set key value lifetime now with
  | error e => exact .inl ⟨e, rfl⟩
  | ok action =>
    unfold set at made
    obtain ⟨_, checked, made⟩ := exists_ok_of_bind made
    obtain ⟨text, written, made⟩ := exists_ok_of_bind made
    have admits : key.utf8ByteSize ≤ h.limits.maxKeyLength := by
      by_contra long
      rw [checkKey, if_pos (by omega)] at checked
      cases checked
    split at made
    · cases made
    next fits =>
      cases made
      exact .inr ⟨text, eq_ok_of_mapError written, admits, by omega, rfl⟩

theorem increase_of_admits (admits : key.utf8ByteSize ≤ h.limits.maxKeyLength) (delta : Int64) :
    h.increase key delta =
      .ok (Store.update h.guild key h.limits.maxKeys (sumText key delta) >>= fun entry =>
        liftM (valueOf entry)) := by
  rw [increase, checkKey, if_neg (by omega)]
  rfl

theorem increase_of_refused (long : h.limits.maxKeyLength < key.utf8ByteSize) (delta : Int64) :
    h.increase key delta = .error (.keyTooLong h.limits.maxKeyLength) := by
  rw [increase, checkKey, if_pos long]
  rfl

end StoreHandle

theorem Store.run_bind_liftM_snd {α β : Type} (s : Store) (now : Instant) (action : StoreAction α)
    (f : α → Except StoreError β) :
    (s.run now (action >>= fun a => liftM (f a))).2 = (s.run now action).2 := by
  rw [run_bind]
  rcases s.run now action with ⟨_ | a, left⟩
  · rfl
  · exact congrArg Prod.snd (run_liftM left now (f a))

theorem StoreCommand.run_get_snd (s : Store) (h : StoreHandle) (now : Instant) (key : String) :
    (s.run now ((get key).action h now)).2 = s := by
  change (s.run now (Store.get h.guild key >>= fun entry =>
    liftM (StoreHandle.valueOf? entry))).2 = s
  rw [Store.run_bind_liftM_snd, Store.get, Store.run_look_snd]

theorem StoreCommand.run_search_snd (s : Store) (h : StoreHandle) (now : Instant)
    (pattern : String) : (s.run now ((search pattern).action h now)).2 = s := by
  rw [action, Store.run_map]
  change (s.run now (Store.search h.guild pattern >>= fun found =>
    liftM (StoreHandle.valuesOf found))).2 = s
  rw [Store.run_bind_liftM_snd, Store.search, Store.run_look_snd]

namespace StoreCommand

open StoreHandle Keyspace

variable {s : Store} {h : StoreHandle} {space : Keyspace} {now : Instant} {key : String}

theorem run_get (holds : s.Holds h.guild space) (now : Instant) (key : String) :
    s.run now ((get key).action h now) = (valueOf? (space.get? key now), s) := by
  change s.run now (Store.get h.guild key >>= fun entry => liftM (valueOf? entry)) = _
  rw [Store.run_bind, holds.run_get]
  simp only [Store.run_liftM]

theorem run_search (holds : s.Holds h.guild space) (now : Instant) (pattern : String) :
    s.run now ((search pattern).action h now) =
      ((valuesOf (space.search pattern now)).map fun found => .map (Dict.ofPairs found), s) := by
  rw [action, Store.run_map]
  change (((s.run now (Store.search h.guild pattern >>= fun found => liftM (valuesOf found))).1).map _,
    (s.run now (Store.search h.guild pattern >>= fun found => liftM (valuesOf found))).2) = _
  rw [Store.run_bind, Store.search, holds.run_look]
  simp only [Store.run_liftM]

theorem run_delete (holds : s.Holds h.guild space) (now : Instant) (key : String) :
    ∃ after left, s.run now ((delete key).action h now) =
        (valueOf? (space.get? key now), after) ∧ after.Holds h.guild left ∧
      (left = Dict.erase key (space.purge now) ∨ space.get? key now = none ∧ left = space) := by
  obtain ⟨after, left, ran, holdsAfter, which⟩ := holds.run_delete now key
  simp only [delete_eq holds.formed.ordered] at ran which
  refine ⟨after, left, ?_, holdsAfter, ?_⟩
  · change s.run now (Store.delete h.guild key >>= fun entry => liftM (valueOf? entry)) = _
    rw [Store.run_bind, ran]
    simp only [Store.run_liftM]
  · simpa [Store.isChange] using which

/-- A request to store a value fails and has written nothing, or has written the text of the value. -/
theorem run_set (holds : s.Holds h.guild space) (instant : now.Valid) (key : String) (value : Value)
    (lifetime : Option Nat) :
    ∃ result after left,
      s.run now ((set key value lifetime).action h now) = (result, after) ∧
      after.Holds h.guild left ∧
      ((∃ e, result = .error e) ∧ Untouched now space left ∨
        ∃ text, value.toJsonText = .ok text ∧ key.utf8ByteSize ≤ h.limits.maxKeyLength ∧
          text.utf8ByteSize ≤ h.limits.maxValueLength ∧ result = .ok .unit ∧
          left = Dict.insert key
            (succeeding (h.entryOf key text lifetime now) (space.get? key now))
            (space.purge now)) := by
  rcases h.set_cases key value lifetime now with ⟨e, refused⟩ | ⟨text, written, admits, fits, made⟩
  · refine ⟨.error e, s, space, ?_, holds, .inl ⟨⟨e, rfl⟩, .inl rfl⟩⟩
    rw [action, refused, Store.run_map]
    rfl
  · obtain ⟨entry, same⟩ : ∃ entry, entry = h.entryOf key text lifetime now := ⟨_, rfl⟩
    have own : entry.guild = h.guild := by rw [same]; rfl
    have under : entry.key = key := by rw [same]; rfl
    have valid : entry.Valid := same ▸ h.valid_entryOf key text lifetime instant
    have holdsEntry : s.Holds entry.guild space := own ▸ holds
    obtain ⟨after, left, ran, holdsAfter, which⟩ := holdsEntry.run_set valid h.limits.maxKeys
    have whole : (set key value lifetime).action h now =
        ((fun _ => .unit) <$> Store.set entry h.limits.maxKeys) := by
      rw [action, made, same]
      rfl
    rw [whole, Store.run_map, ran]
    rw [set_eq holds.formed.ordered, under] at which ⊢
    rw [own] at holdsAfter
    cases full : space.isFull key h.limits.maxKeys now with
    | true =>
      rw [full] at which
      exact ⟨_, after, left, rfl, holdsAfter, .inl ⟨⟨_, rfl⟩, which.symm.imp (·.2) id⟩⟩
    | false =>
      rw [full] at which
      refine ⟨_, after, left, rfl, holdsAfter, .inr ⟨text, written, admits, fits, rfl, ?_⟩⟩
      rw [← same]
      exact which.resolve_right fun stays => Bool.noConfusion stays.1

/-- An increase fails and has written nothing, or has written the text of the sum and answers the
sum. -/
theorem run_increase (holds : s.Holds h.guild space) (instant : now.Valid)
    (admits : key.utf8ByteSize ≤ h.limits.maxKeyLength) (delta : Int64) :
    ∃ result after left,
      s.run now ((increase key delta).action h now) = (result, after) ∧
      after.Holds h.guild left ∧
      (space.isFull key h.limits.maxKeys now = true ∧
          result = .error (.quotaExceeded h.limits.maxKeys) ∧ Untouched now space left ∨
        space.isFull key h.limits.maxKeys now = false ∧
          ((∃ e, sumText key delta (space.get? key now) = .error e ∧ result = .error e ∧
              Untouched now space left) ∨
            ∃ sum text entry, increased key delta (space.get? key now) = .ok sum ∧
              sum.toJsonText = .ok text ∧ Value.ofJsonText text = .ok sum ∧
              entry = revised h.guild key text now (space.get? key now) ∧
              result = .ok sum ∧ left = Dict.insert key entry (space.purge now))) := by
  obtain ⟨after, left, ran, holdsAfter, which⟩ :=
    holds.run_update instant key h.limits.maxKeys (sumText key delta)
  have whole : (increase key delta).action h now =
      (Store.update h.guild key h.limits.maxKeys (sumText key delta) >>= fun entry =>
        liftM (valueOf entry)) := by
    rw [action, increase_of_admits admits]
    rfl
  rw [whole, Store.run_bind, ran]
  rw [update_eq holds.formed.ordered] at which ⊢
  cases full : space.isFull key h.limits.maxKeys now with
  | true =>
    rw [full] at which
    exact ⟨_, after, left, rfl, holdsAfter, .inl ⟨rfl, rfl, which.symm.imp (·.2) id⟩⟩
  | false =>
    rw [full] at which
    cases made : sumText key delta (space.get? key now) with
    | error e =>
      rw [made] at which
      exact ⟨_, after, left, rfl, holdsAfter,
        .inr ⟨rfl, .inl ⟨e, rfl, rfl, which.symm.imp (·.2) id⟩⟩⟩
    | ok text =>
      rw [made] at which
      obtain ⟨sum, total, written, reads⟩ := reads_sum made
      have answer : valueOf (revised h.guild key text now (space.get? key now)) = .ok sum :=
        valueOf_eq_ok (by rw [value_revised, reads])
      refine ⟨_, after, left, ?_, holdsAfter,
        .inr ⟨rfl, .inr ⟨sum, text, _, total, written, reads, rfl, rfl, ?_⟩⟩⟩
      · rw [← answer]
        exact Store.run_liftM _ _ _
      · exact which.resolve_right fun stays => Bool.noConfusion stays.1

theorem run_increase_of_refused (s : Store) (now : Instant) (delta : Int64)
    (long : h.limits.maxKeyLength < key.utf8ByteSize) :
    s.run now ((increase key delta).action h now) =
      (.error (.keyTooLong h.limits.maxKeyLength), s) := by
  rw [action, increase_of_refused long]
  rfl

end StoreCommand

open StoreHandle in
/-- A request leaves the store as it is, or as one change of the keyspace of its guild leaves it. -/
theorem StoreCommand.run_snd_cases (s : Store) (h : StoreHandle) (c : StoreCommand) (now : Instant) :
    (s.run now (c.action h now)).2 = s ∨
      ∃ (α : Type) (counts : α → Bool)
        (operation : Keyspace → Instant → Except StoreError α × Keyspace),
        (s.run now (c.action h now)).2 = (s.run now (Store.change h.guild counts operation)).2 := by
  cases c with
  | get key => exact .inl (run_get_snd s h now key)
  | search pattern => exact .inl (run_search_snd s h now pattern)
  | set key value lifetime =>
    rw [action, Store.run_map]
    rcases h.set_cases key value lifetime now with ⟨e, refused⟩ | ⟨text, -, -, -, made⟩
    · rw [refused]
      exact .inl rfl
    · rw [made]
      exact .inr ⟨Unit, _, _, rfl⟩
  | delete key =>
    have ran : (s.run now ((delete key).action h now)).2 =
        (s.run now (Store.delete h.guild key)).2 :=
      s.run_bind_liftM_snd now (Store.delete h.guild key) valueOf?
    exact .inr ⟨Option Entry, _, _, ran⟩
  | increase key delta =>
    by_cases admits : key.utf8ByteSize ≤ h.limits.maxKeyLength
    · have ran : (s.run now ((increase key delta).action h now)).2 = (s.run now
          (Store.update h.guild key h.limits.maxKeys (sumText key delta))).2 := by
        rw [action, increase_of_admits admits]
        exact s.run_bind_liftM_snd now _ valueOf
      exact .inr ⟨Entry, _, _, ran⟩
    · rw [run_increase_of_refused s now delta (by omega)]
      exact .inl rfl

end GuildSandbox

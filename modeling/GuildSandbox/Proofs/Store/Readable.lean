import GuildSandbox.Proofs.Store.Visits
import GuildSandbox.Proofs.Value.NumberText

/-!
Entries that handles write stay within the limits and can be read.

A value that is set is checked before it is written. A sum is not, but it is a number, whose text is
short, and a float stays finite under an increase. So every entry holds the text of a value that reads
back, and no look-up, deletion, search or increase stumbles over one.
-/

set_option autoImplicit false
set_option relaxedAutoImplicit false

namespace GuildSandbox

open Time (Instant)

/-- The entry is within the standard limits, and its text is that of the value it reads back as. -/
structure Entry.Sound (e : Entry) : Prop where
  key : e.key.utf8ByteSize ≤ 256
  length : e.value.utf8ByteSize ≤ 16384
  reads : ∃ v, Value.ofJsonText e.value = .ok v ∧ v.toJsonText = .ok e.value

def Keyspace.Sound (space : Keyspace) : Prop := ∀ p ∈ space, p.2.Sound

namespace Keyspace

variable {space left : Keyspace} {now : Instant} {key : String} {entry : Entry}

private theorem Sound.filter (sound : space.Sound) (p : String × Entry → Bool) :
    Sound (List.filter p space) :=
  fun q member => sound q (List.mem_filter.1 member).1

private theorem Sound.insert (sound : space.Sound) (here : entry.Sound) :
    Sound (Dict.insert key entry space) := by
  intro p member
  rcases Dict.mem_insert member with rfl | member
  · exact here
  · exact sound p member

private theorem Sound.of_untouched (sound : space.Sound) (untouched : Untouched now space left) :
    left.Sound := by
  rcases untouched with rfl | rfl
  · exact sound
  · exact sound.filter _

private theorem Sound.get? (sound : space.Sound) (ordered : Dict.Ordered space)
    (found : space.get? key now = some entry) : entry.Sound := by
  have member := (Dict.find?_eq_some_iff ordered).1 (Option.filter_eq_some_iff.1 found).1
  exact sound _ member

end Keyspace

private theorem Entry.Sound.valueOf {entry : Entry} (sound : entry.Sound) :
    ∃ v, StoreHandle.valueOf entry = .ok v ∧ v.toJsonText = .ok entry.value := by
  obtain ⟨v, reads, text⟩ := sound.reads
  exact ⟨v, StoreHandle.valueOf_eq_ok reads, text⟩

namespace StoreHandle

variable {found : Option Entry} {key text : String} {delta : Int64}

private theorem exists_valueOf? (sound : ∀ entry ∈ found, entry.Sound) :
    ∃ v, valueOf? found = .ok v := by
  cases found with
  | none => exact ⟨.unit, rfl⟩
  | some entry =>
    obtain ⟨v, reads, -⟩ := (sound entry rfl).valueOf
    exact ⟨v, reads⟩

private theorem exists_valuesOf {entries : List Entry} (sound : ∀ entry ∈ entries, entry.Sound) :
    ∃ values, valuesOf entries = .ok values := by
  induction entries with
  | nil => exact ⟨[], rfl⟩
  | cons entry rest ih =>
    obtain ⟨here, there⟩ := List.forall_mem_cons.1 sound
    obtain ⟨v, reads, -⟩ := here.valueOf
    obtain ⟨values, others⟩ := ih there
    refine ⟨(entry.key, v) :: values, ?_⟩
    rw [valuesOf, reads, others]
    rfl

/-- The sum of a sound entry and a difference has a text, or there is no sum: the entry holds no number,
or the sum is too large. -/
private theorem increased_of_sound (sound : ∀ entry ∈ found, entry.Sound) (key : String)
    (delta : Int64) :
    (∃ sum text, increased key delta found = .ok sum ∧ sum.toJsonText = .ok text) ∨
      ∃ e, increased key delta found = .error e ∧ ∀ cause, e ≠ .value cause := by
  cases found with
  | none => exact .inl ⟨.int delta, _, rfl, rfl⟩
  | some entry =>
    obtain ⟨v, reads, text⟩ := (sound entry rfl).valueOf
    rw [increased_some reads]
    cases v with
    | int n =>
      cases total : Number.Binary64.int64? (n.toInt + delta.toInt) with
      | some sum => exact .inl ⟨.int sum, _, by rw [added, total], rfl⟩
      | none => exact .inr ⟨.overflow key, by rw [added, total], nofun⟩
    | float f =>
      have finite : Number.Binary64.isFinite f = true :=
        (Value.storable_of_toJsonText (v := .float f) trivial text).1
      have low := delta.le_toInt
      have high := delta.toInt_lt
      have again := Number.Binary64.isFinite_add_ofInt finite (n := delta.toInt) (by omega)
      exact .inl ⟨_, _, rfl, Value.toJsonText_float again⟩
    | _ => exact .inr ⟨_, rfl, nofun⟩

private theorem sumText_ne_value (sound : ∀ entry ∈ found, entry.Sound) (key : String)
    (delta : Int64)
    (cause : ValueError) : sumText key delta found ≠ .error (.value cause) := by
  rw [sumText]
  rcases increased_of_sound sound key delta with ⟨sum, text, made, written⟩ | ⟨e, failed, other⟩
  · have encoded : valueText sum = .ok text := by
      rw [valueText, written]
      rfl
    rw [made]
    change valueText sum ≠ _
    rw [encoded]
    nofun
  · rw [failed]
    exact fun same => other cause (Except.error.inj same)

private theorem sound_succeeding {h : StoreHandle} {value : Value} (admits : key.utf8ByteSize ≤ 256)
    (fits : text.utf8ByteSize ≤ 16384) (reads : Value.ofJsonText text = .ok value)
    (written : value.toJsonText = .ok text) (lifetime : Option Nat) (now : Instant)
    (found : Option Entry) : (Keyspace.succeeding (h.entryOf key text lifetime now) found).Sound := by
  cases found <;> exact ⟨admits, fits, value, reads, written⟩

private theorem sound_revised (admits : key.utf8ByteSize ≤ 256)
    (sound : ∀ entry ∈ found, entry.Sound) {sum : Value} (made : increased key delta found = .ok sum)
    (encoded : sum.toJsonText = .ok text) (back : Value.ofJsonText text = .ok sum)
    (guild : String) (now : Instant) : (Keyspace.revised guild key text now found).Sound := by
  have number : (∃ n, sum = .int n) ∨ ∃ f, sum = .float f :=
    (increased_cases made).imp id fun ⟨_, f, _, same⟩ => ⟨f, same⟩
  have length : text.utf8ByteSize ≤ 16384 :=
    Nat.le_trans (Value.utf8ByteSize_number_le encoded number) (by decide)
  cases found with
  | none => exact ⟨admits, length, sum, back, encoded⟩
  | some old => exact ⟨(sound old rfl).key, length, sum, back, encoded⟩

end StoreHandle

namespace StoreVisit

open StoreHandle StoreCommand Keyspace

variable {s : Store} {guild : String} {space : Keyspace} {visit : StoreVisit}

/-- After a visit by a handle with the standard lengths, the entries of every guild are still sound. -/
private theorem sound_step (holds : s.Holds guild space) (sound : space.Sound) (valid : visit.Valid)
    (standard : ∃ n, visit.handle.limits = .withMaxKeys n) :
    ∃ left, (visit.run s).2.Holds guild left ∧ left.Sound := by
  by_cases own : guild = visit.handle.guild
  swap
  · exact ⟨space, holds_of_ne holds own, sound⟩
  subst own
  have ordered := holds.formed.ordered
  obtain ⟨h, now, use⟩ := visit
  obtain ⟨n, limits⟩ := standard
  have found (key : String) : ∀ entry ∈ space.get? key now, entry.Sound :=
    fun entry here => sound.get? ordered here
  cases use with
  | count =>
    refine ⟨space, ?_, sound⟩
    rw [StoreVisit.run, s.run_count_snd h now]
    exact holds
  | request c =>
    cases c with
    | get key =>
      rw [run_request, run_get_snd]
      exact ⟨space, holds, sound⟩
    | search pattern =>
      rw [run_request, run_search_snd]
      exact ⟨space, holds, sound⟩
    | delete key =>
      obtain ⟨after, left, ran, holdsAfter, which⟩ := run_delete holds now key
      rw [run_request, ran]
      refine ⟨left, holdsAfter, ?_⟩
      rcases which with rfl | ⟨-, rfl⟩
      · exact (sound.filter _).filter _
      · exact sound
    | set key value lifetime =>
      obtain ⟨result, after, left, ran, holdsAfter, outcome⟩ :=
        run_set holds valid.instant key value lifetime
      rw [run_request, ran]
      refine ⟨left, holdsAfter, ?_⟩
      rcases outcome with ⟨-, untouched⟩ | ⟨text, written, admits, fits, rfl, rfl⟩
      · exact sound.of_untouched untouched
      · rw [limits] at admits fits
        have back := Value.ofJsonText_of_toJsonText valid.ordered written
        exact (sound.filter _).insert
          (sound_succeeding admits fits back written lifetime now (space.get? key now))
    | increase key delta =>
      by_cases admits : key.utf8ByteSize ≤ h.limits.maxKeyLength
      swap
      · rw [run_request, run_increase_of_refused s now delta (Nat.lt_of_not_le admits)]
        exact ⟨space, holds, sound⟩
      obtain ⟨result, after, left, ran, holdsAfter, outcome⟩ :=
        run_increase holds valid.instant admits delta
      rw [run_request, ran]
      refine ⟨left, holdsAfter, ?_⟩
      rcases outcome with ⟨-, -, untouched⟩ | ⟨-, ⟨e, -, -, untouched⟩ |
        ⟨sum, text, entry, made, written, back, rfl, -, rfl⟩⟩
      · exact sound.of_untouched untouched
      · exact sound.of_untouched untouched
      · -- An increase does not check the length of what it writes.
        have short : key.utf8ByteSize ≤ 256 := by rwa [limits] at admits
        exact (sound.filter _).insert (sound_revised short (found key) made written back h.guild now)

private theorem result_ne_value (holds : s.Holds visit.handle.guild space) (sound : space.Sound)
    (valid : visit.Valid)
    (sets : ∀ key value lifetime, visit.use ≠ .request (.set key value lifetime))
    (cause : ValueError) : (visit.run s).1 ≠ .error (.value cause) := by
  have ordered := holds.formed.ordered
  obtain ⟨h, now, use⟩ := visit
  change s.Holds h.guild space at holds
  have found (key : String) : ∀ entry ∈ space.get? key now, entry.Sound :=
    fun entry here => sound.get? ordered here
  cases use with
  | count =>
    have made : (StoreVisit.run ⟨h, now, .count⟩ s).1 =
        .ok (.int (Int64.ofNat (space.count now))) := by
      change (s.run now ((fun n => Value.int (Int64.ofNat n)) <$> Store.count h.guild)).1 = _
      rw [Store.run_map, Store.count, holds.run_look]
      rfl
    rw [made]
    nofun
  | request c =>
    cases c with
    | set key value lifetime => exact absurd rfl (sets key value lifetime)
    | get key =>
      obtain ⟨v, reads⟩ := exists_valueOf? (found key)
      rw [run_request, run_get holds, reads]
      nofun
    | search pattern =>
      have each : ∀ entry ∈ space.search pattern now, entry.Sound := by
        intro entry member
        obtain ⟨p, live, rfl⟩ := List.mem_map.1 (List.mem_filter.1 member).1
        exact sound p (List.mem_filter.1 live).1
      obtain ⟨values, reads⟩ := exists_valuesOf each
      rw [run_request, run_search holds, reads]
      nofun
    | delete key =>
      obtain ⟨v, reads⟩ := exists_valueOf? (found key)
      obtain ⟨after, left, ran, -⟩ := run_delete holds now key
      rw [run_request, ran, reads]
      nofun
    | increase key delta =>
      by_cases admits : key.utf8ByteSize ≤ h.limits.maxKeyLength
      swap
      · rw [run_request, run_increase_of_refused s now delta (Nat.lt_of_not_le admits)]
        nofun
      obtain ⟨result, after, left, ran, -, outcome⟩ :=
        run_increase holds valid.instant admits delta
      rw [run_request, ran]
      rcases outcome with ⟨-, rfl, -⟩ | ⟨-, ⟨e, failed, rfl, -⟩ | ⟨sum, text, entry, -, -, -, -, rfl, -⟩⟩
      · nofun
      · rintro same
        cases same
        exact sumText_ne_value (found key) key delta cause failed
      · nofun

end StoreVisit

def Store.Refuses (s : Store) (guild : String) : Prop := s.load guild = .error (.invalidGuild guild)

namespace Store

variable {s : Store} {guild : String} {α : Type} {now : Instant}

private theorem serves_or_refuses (empty : s = .memory {} ∨ s = .files {}) (guild : String) :
    s.IsEmptyFor guild ∨ s.Refuses guild := by
  rcases empty with rfl | rfl
  · exact .inl (.inl rfl)
  · by_cases named : LineFileStore.isGuildName guild = true
    · exact .inl (.inr ⟨rfl, named⟩)
    · exact .inr (if_neg named)

private theorem Refuses.change (refuses : s.Refuses guild) (other : String) (counts : α → Bool)
    (operation : Keyspace → Instant → Except StoreError α × Keyspace) :
    (s.run now (Store.change other counts operation)).2.Refuses guild := by
  obtain ⟨e, unchanged⟩ | ⟨space, kept, loaded, keeps, ran⟩ :=
    change_cases s other now counts operation
  · rw [unchanged]
    exact refuses
  · have different : guild ≠ other := by
      rintro rfl
      cases refuses.symm.trans loaded
    have live := live_of_keep_of_ne keeps different now
    rw [Store.live, Store.live, refuses] at live
    rw [ran]
    cases after : kept.load guild with
    | ok space =>
      rw [after] at live
      cases live
    | error e =>
      rw [after] at live
      cases live
      exact after

private theorem Refuses.visit (refuses : s.Refuses guild) (visit : StoreVisit) :
    (visit.run s).2.Refuses guild := by
  obtain same | ⟨α, counts, operation, same⟩ := visit.run_snd_cases s
  · rw [same]
    exact refuses
  · rw [same]
    exact refuses.change visit.handle.guild counts operation

open StoreHandle in
/-- Any use for a refused guild but setting a value fails over the guild, or over the length of the
key. -/
private theorem Refuses.run_fst {visit : StoreVisit} (refuses : s.Refuses visit.handle.guild)
    (sets : ∀ key value lifetime, visit.use ≠ .request (.set key value lifetime)) :
    (visit.run s).1 = .error (.invalidGuild visit.handle.guild) ∨
      ∃ n, (visit.run s).1 = .error (.keyTooLong n) := by
  obtain ⟨h, now, use⟩ := visit
  change s.Refuses h.guild at refuses
  have looking {α β : Type} (ask : Keyspace → Instant → α) (next : α → StoreAction β) :
      (s.run now (Store.look h.guild ask >>= next)).1 = .error (.invalidGuild h.guild) := by
    rw [run_bind, run_look_of_error refuses]
  have changing {α : Type} (counts : α → Bool)
      (operation : Keyspace → Instant → Except StoreError α × Keyspace)
      (next : α → StoreAction Value) :
      (s.run now (Store.change h.guild counts operation >>= next)).1 =
        .error (.invalidGuild h.guild) := by
    rw [run_bind, run_change_of_error refuses]
  cases use with
  | count =>
    exact .inl (looking Keyspace.count fun n =>
      (pure (.int (Int64.ofNat n)) : StoreAction Value))
  | request c =>
    cases c with
    | set key value lifetime => exact absurd rfl (sets key value lifetime)
    | get key =>
      exact .inl (looking _ fun entry => liftM (valueOf? entry))
    | search pattern =>
      have found := looking (fun space now => space.search pattern now) fun found =>
        (liftM (valuesOf found) : StoreAction (List (String × Value)))
      refine .inl ?_
      rw [StoreVisit.run_request, StoreCommand.action, run_map]
      exact congrArg (Except.map fun found => Value.map (Dict.ofPairs found)) found
    | delete key =>
      exact .inl (changing _ _ fun entry => liftM (valueOf? entry))
    | increase key delta =>
      rw [StoreVisit.run_request]
      by_cases admits : key.utf8ByteSize ≤ h.limits.maxKeyLength
      · rw [StoreCommand.action, increase_of_admits admits]
        exact .inl (changing _ _ fun entry => liftM (valueOf entry))
      · refine .inr ⟨h.limits.maxKeyLength, ?_⟩
        rw [StoreCommand.run_increase_of_refused s now delta (Nat.lt_of_not_le admits)]

private theorem Refuses.result_ne_value {visit : StoreVisit}
    (refuses : s.Refuses visit.handle.guild)
    (sets : ∀ key value lifetime, visit.use ≠ .request (.set key value lifetime))
    (cause : ValueError) : (visit.run s).1 ≠ .error (.value cause) := by
  rcases refuses.run_fst sets with failed | ⟨n, failed⟩ <;> simp [failed]

end Store

section

variable {s : Store} {visits : List StoreVisit}

private theorem Store.holds_sound_after {guild : String} (empty : s.IsEmptyFor guild)
    (valid : ∀ visit ∈ visits, visit.Valid)
    (standard : ∀ visit ∈ visits, ∃ n, visit.handle.limits = .withMaxKeys n) :
    ∃ space, (s.after visits).Holds guild space ∧ space.Sound := by
  induction visits with
  | nil => exact ⟨[], empty.holds, fun _ member => nomatch member⟩
  | cons visit earlier ih =>
    obtain ⟨validHere, validRest⟩ := List.forall_mem_cons.1 valid
    obtain ⟨standardHere, standardRest⟩ := List.forall_mem_cons.1 standard
    obtain ⟨space, holds, sound⟩ := ih validRest standardRest
    exact StoreVisit.sound_step holds sound validHere standardHere

private theorem Store.refuses_after {guild : String} (refuses : s.Refuses guild)
    (visits : List StoreVisit) :
    (s.after visits).Refuses guild := by
  induction visits with
  | nil => exact refuses
  | cons visit earlier ih => exact ih.visit visit

/-- In a store that was empty, whatever handles with the standard lengths have done, every entry of
every guild is sound, and no use but setting a value fails over a text. -/
theorem Store.sound_after (empty : s = .memory {} ∨ s = .files {})
    (valid : ∀ visit ∈ visits, visit.Valid)
    (standard : ∀ visit ∈ visits, ∃ n, visit.handle.limits = .withMaxKeys n) :
    (∀ guild space, (s.after visits).load guild = .ok space → ∀ p ∈ space, p.2.Sound) ∧
      ∀ visit : StoreVisit, visit.Valid →
        (∀ key value lifetime, visit.use ≠ .request (.set key value lifetime)) →
        ∀ cause, (visit.run (s.after visits)).1 ≠ .error (.value cause) := by
  refine ⟨fun guild space loaded => ?_, fun visit validHere sets cause => ?_⟩
  · rcases Store.serves_or_refuses empty guild with served | refused
    · obtain ⟨held, holds, sound⟩ := Store.holds_sound_after served valid standard
      cases holds.load.symm.trans loaded
      exact sound
    · cases (Store.refuses_after refused visits).symm.trans loaded
  · rcases Store.serves_or_refuses empty visit.handle.guild with served | refused
    · obtain ⟨held, holds, sound⟩ := Store.holds_sound_after served valid standard
      exact visit.result_ne_value holds sound validHere sets cause
    · exact (Store.refuses_after refused visits).result_ne_value sets cause

theorem replacingVisits_sound :
    (∀ visit ∈ replacingVisits, visit.Valid) ∧
      (∀ visit ∈ replacingVisits, ∃ n, visit.handle.limits = .withMaxKeys n) ∧
      (∃ space, ((Store.memory {}).after replacingVisits).load "1" = .ok space ∧
        space.length = 1 ∧ ∀ p ∈ space, p.2.Sound) ∧
      ∀ cause, (StoreVisit.run ⟨{ guild := "1", limits := .withMaxKeys 1 }, ⟨5, 0⟩,
        .request (.delete "n")⟩ ((Store.memory {}).after replacingVisits)).1 ≠
          .error (.value cause) := by
  have valid := valid_of_mem_replacingVisits
  have standard : ∀ visit ∈ replacingVisits, ∃ n, visit.handle.limits = .withMaxKeys n := by
    simp only [replacingVisits, List.forall_mem_cons]
    exact ⟨⟨3, rfl⟩, ⟨2, rfl⟩, ⟨1, rfl⟩, ⟨2, rfl⟩, ⟨1, rfl⟩, by simp⟩
  obtain ⟨entries, answers⟩ := Store.sound_after (.inl rfl) valid standard
  have one : (((Store.memory {}).after replacingVisits).load "1").toOption.map List.length =
      some 1 := by decide +kernel
  refine ⟨valid, standard, ?_, answers _ ⟨by decide, trivial⟩ (by simp)⟩
  cases loaded : ((Store.memory {}).after replacingVisits).load "1" with
  | ok space =>
    rw [loaded] at one
    exact ⟨space, rfl, Option.some.inj one, entries "1" space loaded⟩
  | error e =>
    rw [loaded] at one
    cases one

end

end GuildSandbox

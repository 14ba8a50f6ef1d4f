import GuildSandbox.Proofs.Store.Visits

/-!
What stands under a key by the record of all visits.

The record says which requests have succeeded. From it alone follows what a key stands for: the value of
the last successful write, unless the key was deleted since or the entry has expired, with the times of
its entry. The store answers accordingly.
-/

set_option autoImplicit false
set_option relaxedAutoImplicit false

namespace GuildSandbox

open Time (Instant)

/-- What stands under a key: a value, and the times of its entry. -/
structure Standing where
  value : Value
  createdAt : Instant
  updatedAt : Instant
  expiresAt : Option Instant

/-- The times of an entry: of its creation, of the last write, and of its expiry. -/
def Entry.times (e : Entry) : Instant × Instant × Option Instant :=
  (e.createdAt, e.updatedAt, e.expiresAt)

namespace Standing

def isLive (st : Standing) (t : Instant) : Bool :=
  match st.expiresAt with
  | some e => !decide (e ≤ t)
  | none => true

def times (st : Standing) : Instant × Instant × Option Instant :=
  (st.createdAt, st.updatedAt, st.expiresAt)

/-- A difference added to the number that stands there; nothing counts as zero. -/
def plus (delta : Int64) : Option Standing → Value
  | none => .int delta
  | some st =>
    match st.value with
    | .int n => .int (n + delta)
    | .float f => .float (f + Number.Binary64.ofInt delta.toInt)
    | value => value

end Standing

namespace StoreCommand

def changedKey? : StoreCommand → Option String
  | .set key _ _ | .delete key | .increase key _ => some key
  | .get _ | .search _ => none

/-- What the request leaves under its key when it succeeds, given what it finds there. A value that is
set has a lifetime of its own, an increased one keeps that of the old. -/
def leaves (now : Instant) (found : Option Standing) : StoreCommand → Option Standing
  | .set _ value lifetime => some
      { value := value, createdAt := (found.map Standing.createdAt).getD now, updatedAt := now
        expiresAt := StoreHandle.expiry now lifetime }
  | .increase _ delta => some
      { value := Standing.plus delta found, createdAt := (found.map Standing.createdAt).getD now
        updatedAt := now, expiresAt := found.bind Standing.expiresAt }
  | .delete _ => none
  | .get _ | .search _ => found

end StoreCommand

/-- What was last written under a key of the guild by these records, the latest first, unless it was
deleted since. What has expired when a request comes is not there for it. -/
def lastWritten (guild key : String) :
    List (StoreVisit × Except StoreError Value) → Option Standing
  | [] => none
  | (⟨h, now, .request c⟩, .ok _) :: earlier =>
    if h.guild = guild ∧ c.changedKey? = some key then
      c.leaves now ((lastWritten guild key earlier).filter fun st => st.isLive now)
    else lastWritten guild key earlier
  | _ :: earlier => lastWritten guild key earlier

def standing (guild key : String) (t : Instant)
    (records : List (StoreVisit × Except StoreError Value)) : Option Standing :=
  (lastWritten guild key records).filter fun st => st.isLive t

def Standing.valueOrUnit : Option Standing → Value
  | some st => st.value
  | none => .unit

section

variable {guild key : String} {h : StoreHandle} {now : Instant} {use : StoreUse} {c : StoreCommand}
  {value : Value} {records : List (StoreVisit × Except StoreError Value)}

private theorem lastWritten_error (e : StoreError) :
    lastWritten guild key ((⟨h, now, use⟩, .error e) :: records) = lastWritten guild key records := by
  cases use <;> rfl

private theorem lastWritten_of_ne {result : Except StoreError Value}
    (elsewhere : ¬ (h.guild = guild ∧ c.changedKey? = some key)) :
    lastWritten guild key ((⟨h, now, .request c⟩, result) :: records) =
      lastWritten guild key records := by
  cases result with
  | error e => rfl
  | ok value => exact if_neg elsewhere

private theorem lastWritten_self (changed : c.changedKey? = some key) :
    lastWritten h.guild key ((⟨h, now, .request c⟩, .ok value) :: records) =
      c.leaves now (standing h.guild key now records) :=
  if_pos ⟨rfl, changed⟩

end

structure Entry.Bears (e : Entry) (st : Standing) : Prop where
  value : StoreHandle.valueOf e = .ok st.value
  createdAt : e.createdAt = st.createdAt
  updatedAt : e.updatedAt = st.updatedAt
  expiresAt : e.expiresAt = st.expiresAt

section

variable {found : Option Entry} {stands : Option Standing}

private theorem Entry.Bears.isLive {e : Entry} {st : Standing} (bears : e.Bears st) (t : Instant) :
    e.isLive t = st.isLive t := by
  rw [Entry.isLive, Entry.isExpired, Standing.isLive, bears.expiresAt]
  cases st.expiresAt <;> rfl

private theorem bears_filter (bears : Option.Rel Entry.Bears found stands) (t : Instant) :
    Option.Rel Entry.Bears (found.filter fun e => e.isLive t) (stands.filter fun st => st.isLive t) := by
  cases bears with
  | none => exact .none
  | some here =>
    rw [Option.filter_some, Option.filter_some, here.isLive t]
    split
    · exact .some here
    · exact .none

private theorem valueOf?_of_bears (bears : Option.Rel Entry.Bears found stands) :
    StoreHandle.valueOf? found = .ok (Standing.valueOrUnit stands) := by
  cases bears with
  | none => rfl
  | some here => exact here.value

private theorem times_of_bears (bears : Option.Rel Entry.Bears found stands) :
    found.map Entry.times = stands.map Standing.times := by
  cases bears with
  | none => rfl
  | some here =>
    simp [Entry.times, Standing.times, here.createdAt, here.updatedAt, here.expiresAt]

private theorem increased_eq_plus (bears : Option.Rel Entry.Bears found stands) {key : String}
    {delta : Int64}
    {sum : Value} (made : StoreHandle.increased key delta found = .ok sum) :
    sum = Standing.plus delta stands := by
  cases bears with
  | none =>
    cases made
    rfl
  | @some e st here =>
    obtain ⟨value, createdAt, updatedAt, expiresAt⟩ := st
    have reads : StoreHandle.valueOf e = .ok value := here.value
    rw [StoreHandle.increased_some reads] at made
    cases value with
    | int n =>
      rw [StoreHandle.added] at made
      cases inside : Number.Binary64.int64? (n.toInt + delta.toInt) with
      | none =>
        rw [inside] at made
        cases made
      | some total =>
        rw [inside] at made
        cases made
        have exact := Number.Binary64.toInt_of_int64? inside
        have wrapped : total = n + delta := by
          rw [← Int64.ofInt_toInt total, exact, Int64.ofInt_add, Int64.ofInt_toInt,
            Int64.ofInt_toInt]
        rw [wrapped]
        rfl
    | float f =>
      cases made
      rfl
    | _ => cases made

private theorem bears_succeeding (bears : Option.Rel Entry.Bears found stands) {h : StoreHandle}
    {key text : String} {value : Value} {lifetime : Option Nat} {now : Instant}
    (reads : Value.ofJsonText text = .ok value) :
    Option.Rel Entry.Bears
      (some (Keyspace.succeeding (h.entryOf key text lifetime now) found))
      ((StoreCommand.set key value lifetime).leaves now stands) := by
  have read : StoreHandle.valueOf
      (Keyspace.succeeding (h.entryOf key text lifetime now) found) = .ok value :=
    StoreHandle.valueOf_eq_ok (by rw [Keyspace.value_succeeding]; exact reads)
  cases bears with
  | none => exact .some ⟨read, rfl, rfl, rfl⟩
  | some here => exact .some ⟨read, here.createdAt, rfl, rfl⟩

private theorem bears_revised (bears : Option.Rel Entry.Bears found stands)
    {guild key text : String}
    {delta : Int64} {now : Instant} (reads : Value.ofJsonText text = .ok (Standing.plus delta stands)) :
    Option.Rel Entry.Bears (some (Keyspace.revised guild key text now found))
      ((StoreCommand.increase key delta).leaves now stands) := by
  have read : StoreHandle.valueOf (Keyspace.revised guild key text now found) =
      .ok (Standing.plus delta stands) :=
    StoreHandle.valueOf_eq_ok (by rw [Keyspace.value_revised, reads])
  cases bears with
  | none => exact .some ⟨read, rfl, rfl, rfl⟩
  | some here => exact .some ⟨read, here.createdAt, rfl, here.expiresAt⟩

end

/-- From an instant on, what is found in the keyspace bears what stands by the records. -/
def Tracks (guild : String) (now : Instant) (space : Keyspace)
    (records : List (StoreVisit × Except StoreError Value)) : Prop :=
  ∀ key t, now ≤ t → Option.Rel Entry.Bears (space.get? key t) (standing guild key t records)

section

open Keyspace StoreCommand StoreHandle StoreVisit

variable {s : Store} {guild key : String} {space left : Keyspace} {last now : Instant}
  {h : StoreHandle} {c : StoreCommand} {entry : Entry} {value : Value}
  {records : List (StoreVisit × Except StoreError Value)}

/-- When a visit has written nothing and its record changes nothing, the keyspace still tracks them. -/
private theorem Tracks.of_untouched (tracks : Tracks guild last space records) (order : last ≤ now)
    (ordered : Dict.Ordered space) (untouched : Untouched now space left)
    {records' : List (StoreVisit × Except StoreError Value)}
    (quiet : ∀ key, lastWritten guild key records' = lastWritten guild key records) :
    Tracks guild now left records' := by
  intro key t later
  rw [untouched.get?_of_le ordered later, standing, quiet key]
  exact tracks key t (Instant.le_trans order later)

/-- When a request has changed what is under its key, the keyspace tracks the records if what is found
there does. -/
private theorem Tracks.of_changed (tracks : Tracks h.guild last space records) (order : last ≤ now)
    (changed : c.changedKey? = some key)
    (elsewhere : ∀ other ≠ key, ∀ t, now ≤ t → left.get? other t = space.get? other t)
    (here : ∀ t, now ≤ t → Option.Rel Entry.Bears (left.get? key t)
      ((c.leaves now (standing h.guild key now records)).filter fun st => st.isLive t)) :
    Tracks h.guild now left ((⟨h, now, .request c⟩, .ok value) :: records) := by
  intro other t later
  by_cases same : other = key
  · subst same
    rw [standing, lastWritten_self changed]
    exact here t later
  · have unchanged : ¬ (h.guild = h.guild ∧ c.changedKey? = some other) := by
      rw [changed]
      exact fun equal => same (Option.some.inj equal.2).symm
    rw [elsewhere other same t later, standing, lastWritten_of_ne unchanged]
    exact tracks other t (Instant.le_trans order later)

/-- When a request has written an entry that bears what it leaves, the keyspace tracks its record. -/
private theorem Tracks.of_insert (tracks : Tracks h.guild last space records) (order : last ≤ now)
    (ordered : Dict.Ordered space) (changed : c.changedKey? = some key)
    (bears : Option.Rel Entry.Bears (some entry)
      (c.leaves now (standing h.guild key now records))) :
    Tracks h.guild now (Dict.insert key entry (space.purge now))
      ((⟨h, now, .request c⟩, .ok value) :: records) := by
  refine tracks.of_changed order changed (fun other different t later => ?_) fun t later => ?_
  · rw [get?_insert_of_ne different, get?_purge ordered, get?_filter_of_le later]
  · rw [get?_insert_self]
    exact bears_filter bears t

private theorem Tracks.step {visit : StoreVisit} (holds : s.Holds guild space)
    (tracks : Tracks guild last space records) (order : last ≤ visit.now) (valid : visit.Valid) :
    ∃ left, (visit.run s).2.Holds guild left ∧
      Tracks guild visit.now left ((visit, (visit.run s).1) :: records) := by
  have ordered := holds.formed.ordered
  obtain ⟨h, now, use⟩ := visit
  change last ≤ now at order
  by_cases own : guild = h.guild
  swap
  · -- Nothing is recorded for the guild, whatever the visit is.
    refine ⟨space, StoreVisit.holds_of_ne holds own, ?_⟩
    refine tracks.of_untouched order ordered (.inl rfl) fun key => ?_
    cases use with
    | count => rfl
    | request c => exact lastWritten_of_ne fun equal => own equal.1.symm
  subst own
  have found (key : String) := tracks key now order
  cases use with
  | count =>
    refine ⟨space, ?_, tracks.of_untouched order ordered (.inl rfl) fun key => rfl⟩
    rw [StoreVisit.run, s.run_count_snd h now]
    exact holds
  | request c =>
    cases c with
    | get key =>
      refine ⟨space, ?_, tracks.of_untouched order ordered (.inl rfl)
        fun other => lastWritten_of_ne (by simp [changedKey?])⟩
      rw [run_request, run_get_snd]
      exact holds
    | search pattern =>
      refine ⟨space, ?_, tracks.of_untouched order ordered (.inl rfl)
        fun other => lastWritten_of_ne (by simp [changedKey?])⟩
      rw [run_request, run_search_snd]
      exact holds
    | delete key =>
      obtain ⟨after, left, ran, holdsAfter, which⟩ := run_delete holds now key
      rw [run_request, ran, valueOf?_of_bears (found key)]
      refine ⟨left, holdsAfter, tracks.of_changed order rfl (fun other different t later => ?_)
        fun t later => ?_⟩
      · rcases which with rfl | ⟨-, rfl⟩
        · rw [get?_erase_of_ne (ordered_purge ordered now) different, get?_purge ordered,
            get?_filter_of_le later]
        · rfl
      · rcases which with rfl | ⟨absent, rfl⟩
        · rw [get?_erase_self (ordered_purge ordered now)]
          exact .none
        · rw [← get?_filter_of_le later, absent]
          exact .none
    | set key value lifetime =>
      obtain ⟨result, after, left, ran, holdsAfter, outcome⟩ :=
        run_set holds valid.instant key value lifetime
      rw [run_request, ran]
      refine ⟨left, holdsAfter, ?_⟩
      rcases outcome with ⟨⟨e, rfl⟩, untouched⟩ | ⟨text, written, -, -, rfl, rfl⟩
      · exact tracks.of_untouched order ordered untouched fun key => lastWritten_error e
      · have back := Value.ofJsonText_of_toJsonText valid.ordered written
        exact tracks.of_insert order ordered rfl (bears_succeeding (found key) back)
    | increase key delta =>
      by_cases admits : key.utf8ByteSize ≤ h.limits.maxKeyLength
      swap
      · rw [run_request, run_increase_of_refused s now delta (Nat.lt_of_not_le admits)]
        exact ⟨space, holds, tracks.of_untouched order ordered (.inl rfl)
          fun key => lastWritten_error _⟩
      obtain ⟨result, after, left, ran, holdsAfter, outcome⟩ :=
        run_increase holds valid.instant admits delta
      rw [run_request, ran]
      refine ⟨left, holdsAfter, ?_⟩
      rcases outcome with ⟨-, rfl, untouched⟩ | ⟨-, ⟨e, -, rfl, untouched⟩ |
        ⟨sum, text, entry, total, -, back, rfl, rfl, rfl⟩⟩
      · exact tracks.of_untouched order ordered untouched fun key => lastWritten_error _
      · exact tracks.of_untouched order ordered untouched fun key => lastWritten_error e
      · cases increased_eq_plus (found key) total
        exact tracks.of_insert order ordered rfl (bears_revised (found key) back)

private theorem Store.tracks_after (empty : s.IsEmptyFor guild) {visits : List StoreVisit}
    (order : (now :: visits.map StoreVisit.now).Pairwise fun later earlier => earlier ≤ later)
    (valid : ∀ visit ∈ visits, visit.Valid) :
    ∃ space, (s.after visits).Holds guild space ∧ Tracks guild now space (s.records visits) := by
  induction visits generalizing now with
  | nil => exact ⟨[], empty.holds, fun _ _ _ => .none⟩
  | cons visit earlier ih =>
    obtain ⟨first, orderRest⟩ := List.pairwise_cons.1 order
    obtain ⟨validHere, validRest⟩ := List.forall_mem_cons.1 valid
    -- The visits before the latest one are tracked up to its instant.
    obtain ⟨space, holds, tracks⟩ := ih orderRest validRest
    obtain ⟨left, holdsAfter, tracksAfter⟩ := tracks.step holds (Instant.le_refl _) validHere
    refine ⟨left, holdsAfter, fun key t later => tracksAfter key t (Instant.le_trans ?_ later)⟩
    exact first visit.now List.mem_cons_self

/-- In a store that was empty, a look-up and a deletion give what stands under the key by the records
of all visits so far, and the entry has its times. -/
theorem Store.standing_of_records (empty : s.IsEmptyFor guild) {visits : List StoreVisit}
    {t : Instant}
    (order : (t :: visits.map StoreVisit.now).Pairwise fun later earlier => earlier ≤ later)
    (valid : ∀ visit ∈ visits, visit.Valid) (key : String) :
    let after := s.after visits
    let stands := standing guild key t (s.records visits)
    (∃ found, (after.run t (Store.get guild key)).1 = .ok found ∧
      found.map Entry.times = stands.map Standing.times) ∧
    ∀ h : StoreHandle, h.guild = guild →
      (after.run t ((StoreCommand.get key).action h t)).1 = .ok (Standing.valueOrUnit stands) ∧
      (after.run t ((StoreCommand.delete key).action h t)).1 =
        .ok (Standing.valueOrUnit stands) := by
  intro after stands
  obtain ⟨space, holds, tracks⟩ := Store.tracks_after empty order valid
  have bears : Option.Rel Entry.Bears (space.get? key t) stands := tracks key t (Instant.le_refl t)
  refine ⟨⟨space.get? key t, ?_, ?_⟩, ?_⟩
  · exact congrArg Prod.fst (holds.run_get t key)
  · exact times_of_bears bears
  · rintro h rfl
    refine ⟨?_, ?_⟩
    · rw [run_get holds t key, valueOf?_of_bears bears]
    · obtain ⟨kept, left, ran, -⟩ := run_delete holds t key
      rw [ran, valueOf?_of_bears bears]

end

def Value.float? : Value → Option Float
  | .float f => some f
  | _ => none

private theorem Value.eq_of_float? {v : Value} {f : Float} (float : v.float? = some f) :
    v = .float f := by
  unfold float? at float
  split at float
  · cases float
    rfl
  · cases float

theorem replacingVisits_stand :
    (Store.memory {}).IsEmptyFor "1" ∧
      ((⟨5, 0⟩ : Instant) :: replacingVisits.map StoreVisit.now).Pairwise
        (fun later earlier => earlier ≤ later) ∧
      (∀ visit ∈ replacingVisits, visit.Valid) ∧
      (∃ found, (((Store.memory {}).after replacingVisits).run ⟨5, 0⟩ (Store.get "1" "n")).1 =
          .ok found ∧
        found.map Entry.times = some (⟨2, 0⟩, ⟨4, 0⟩, none)) ∧
      ∀ h : StoreHandle, h.guild = "1" →
        (((Store.memory {}).after replacingVisits).run ⟨5, 0⟩
          ((StoreCommand.get "n").action h ⟨5, 0⟩)).1 = .ok (.float 1.5) := by
  have empty : (Store.memory {}).IsEmptyFor "1" := .inl rfl
  have order : ((⟨5, 0⟩ : Instant) :: replacingVisits.map StoreVisit.now).Pairwise
      (fun later earlier => earlier ≤ later) := by decide
  have valid := valid_of_mem_replacingVisits
  obtain ⟨⟨entry, looked, times⟩, answers⟩ := Store.standing_of_records empty order valid "n"
  have since : (standing "1" "n" ⟨5, 0⟩ ((Store.memory {}).records replacingVisits)).map
      Standing.times = some (⟨2, 0⟩, ⟨4, 0⟩, none) := by decide +kernel
  have sum : (Standing.valueOrUnit
      (standing "1" "n" ⟨5, 0⟩ ((Store.memory {}).records replacingVisits))).float? = some 1.5 := by
    decide +kernel
  refine ⟨empty, order, valid, ⟨entry, looked, times.trans since⟩, fun h own => ?_⟩
  rw [(answers h own).1, Value.eq_of_float? sum]

end GuildSandbox

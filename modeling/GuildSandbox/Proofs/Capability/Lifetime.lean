import GuildSandbox.Proofs.Capability.Cancelled
import GuildSandbox.Proofs.Host.Requests
import GuildSandbox.Proofs.Store.Spared

/-!
Lifetimes of stored values are exact.

A script gives a lifetime in whole seconds. On its way to the entry it becomes a duration in milliseconds
and then a date, each of which has limits of its own. Wherever one of them is passed, the entry never
expires; otherwise it is there until exactly that many seconds after the instant of the request.
-/

set_option autoImplicit false
set_option relaxedAutoImplicit false

namespace GuildSandbox

open Time (Instant)

namespace Time.Instant

/-- A lifetime of so many seconds from `t` on is over. It never is when there is no such duration or the
calendar does not reach so far. -/
def LifetimeOver (t : Instant) (seconds : Int) (now : Instant) : Prop :=
  seconds * 1000 ≤ longestDuration ∧ t.seconds + seconds ≤ lastSecond ∧
    { t with seconds := t.seconds + seconds } ≤ now

instance (t : Instant) (seconds : Int) (now : Instant) : Decidable (t.LifetimeOver seconds now) := by
  unfold LifetimeOver
  infer_instance

theorem addMillis?_seconds {t : Instant} (valid : t.Valid) (fraction : t.nanos < 1000000000)
    (n : Nat) : t.addMillis? (n * 1000) =
      if n * 1000 ≤ longestDuration ∧ t.seconds + n ≤ lastSecond then
        some { t with seconds := t.seconds + n }
      else none := by
  have inside : inRange (t.seconds + n) = true ↔ t.seconds + n ≤ lastSecond := by
    have begun := valid.1
    simp only [inRange, Bool.and_eq_true, decide_eq_true_eq] at begun ⊢
    omega
  -- Whole seconds have no fraction that could carry over.
  have whole : n * 1000 % 1000 = 0 := Nat.mul_mod_left n 1000
  have count : n * 1000 / 1000 = n := Nat.mul_div_cancel n (by decide)
  have carry : t.nanos / 1000000000 = 0 := Nat.div_eq_of_lt fraction
  simp only [addMillis?, whole, count, Nat.zero_mul, Nat.add_zero, carry, Int.natCast_zero,
    Int.add_zero, Nat.mod_eq_of_lt fraction]
  by_cases long : longestDuration < n * 1000
  · rw [if_pos long, if_neg fun fits => Nat.not_le.2 long fits.1]
  · rw [if_neg long]
    exact if_congr (by simp [Nat.le_of_not_lt long, inside]) rfl rfl

end Time.Instant

private theorem World.nanos_now (w : World) : w.now.nanos < 1000000000 := Nat.mod_lt _ (by decide)

private theorem StoreHandle.isExpired_entryOf {t : Instant} (valid : t.Valid)
    (fraction : t.nanos < 1000000000) (h : StoreHandle) (key text : String) (n : Nat)
    (now : Instant) :
    (h.entryOf key text (some (n * 1000)) t).isExpired now = decide (t.LifetimeOver n now) := by
  have expires : (h.entryOf key text (some (n * 1000)) t).expiresAt = t.addMillis? (n * 1000) := rfl
  rw [Entry.isExpired, expires, Instant.addMillis?_seconds valid fraction]
  unfold Instant.LifetimeOver
  by_cases fits : n * 1000 ≤ Instant.longestDuration ∧ t.seconds + n ≤ Instant.lastSecond
  · rw [if_pos fits]
    have short : (n : Int) * 1000 ≤ (Instant.longestDuration : Nat) := by exact_mod_cast fits.1
    simp only [short, fits.2, true_and]
  · rw [if_neg fits]
    refine (decide_eq_false fun ended => fits ⟨?_, ended.2.1⟩).symm
    exact_mod_cast ended.1

namespace Invocation

private theorem lifetime_of_pos {seconds : Int64} (positive : 0 < seconds.toInt) :
    lifetime (some seconds) = .ok (some (seconds.toInt.toNat * 1000)) := if_pos positive

private theorem lifetime_of_nonpos {seconds : Int64} (refused : seconds.toInt ≤ 0) :
    lifetime (some seconds) = .error (.invalidArgument
      ("ttl must be a positive number of seconds, got " ++ toString seconds.toInt)) :=
  if_neg (Int.not_lt.2 refused)

end Invocation

/-- The store is one in files, or was empty in memory, before it was asked anything. -/
def Store.Reached (s : Store) : Prop :=
  ∃ (start : Store) (calls : List (Instant × StoreCall)),
    (start = .memory {} ∨ ∃ f, start = .files f) ∧ (∀ event ∈ calls, event.2.Valid event.1) ∧
      start.afterCalls calls = s

/-- However else the store is used from here on, look-ups under the key give this at each instant, as
long as nothing is written there: look-ups by any handle of the guild, and by a script if its run is
answered. -/
def Store.Shows (s : Store) (guild key : String) (found : Instant → Except StoreError Value) : Prop :=
  ∀ calls : List (Instant × StoreCall), (∀ event ∈ calls, event.2.Valid event.1) →
    s.EntrySpared guild key calls → ∀ reader : StoreHandle, reader.guild = guild →
      (∀ t, (∀ event ∈ calls, event.1 ≤ t) →
        ((s.afterCalls calls).run t ((StoreCommand.get key).action reader t)).1 = found t) ∧
      ∀ (inv : Invocation) (w left : World) (result : Except RunError Value),
        w.store = s.afterCalls calls →
        ((Call.storeGet reader key).perform inv).run w = (result, left) →
        (∀ event ∈ calls, event.1 ≤ left.now) →
        (w.StoreAnswers → result = (found left.now).mapError .store) ∧
          ∀ v, result = .ok v → found left.now = .ok v

namespace Call

variable {inv : Invocation} {h : StoreHandle} {key : String} {value : Value} {seconds : Int64}
  {w after : World} {given : Value}

private theorem run_storeSet (inv : Invocation) (h : StoreHandle) (key : String) (value : Value)
    (seconds : Option Int64) (w : World) : ((storeSet h key value seconds).perform inv).run w =
      match Invocation.lifetime seconds with
      | .ok lifetime =>
        let stored := (Host.request fun w => h.set key value lifetime w.now).run w
        (stored.1.map fun _ => .unit, stored.2)
      | .error e => (.error e, w) := by
  rw [Call.perform, Host.run_bind, Host.run_ofExcept]
  cases Invocation.lifetime seconds with
  | error e => rfl
  | ok lifetime =>
    simp only [Host.run_bind]
    rcases (Host.request fun w => h.set key value lifetime w.now).run w with ⟨_ | _, left⟩
    · rfl
    · rfl

private theorem exists_found_of_storeSet
    (stored : ((storeSet h key value (some seconds)).perform inv).run w = (.ok given, after))
    (reached : w.store.Reached) (instant : w.now.Valid) :
    ∃ left written text, after.store.Holds h.guild left ∧ value.toJsonText = .ok text ∧
      written.value = text ∧
      ∀ t, left.get? key t = if w.now.LifetimeOver seconds.toInt t then none else some written := by
  rw [run_storeSet] at stored
  by_cases positive : 0 < seconds.toInt
  swap
  · rw [Invocation.lifetime_of_nonpos (Int.not_lt.1 positive)] at stored
    cases stored
  rw [Invocation.lifetime_of_pos positive] at stored
  obtain ⟨succeeds, rfl⟩ := Prod.mk.inj stored
  obtain ⟨_, succeeds, -⟩ := exists_ok_of_map succeeds
  obtain ⟨v, action, sameInstant, made, ran⟩ :=
    Host.exists_action_of_request (Prod.ext succeeds rfl)
  obtain ⟨e, refused⟩ | ⟨text, encoded, accepted⟩ := h.set_alike key value
  · cases (refused _ _).symm.trans made
  rw [sameInstant, accepted] at made
  cases made
  obtain ⟨start, calls, begins, valid, same⟩ := reached
  have formed : ∀ space, w.store.load h.guild = .ok space → space.WellFormed := fun space loaded =>
    Store.wellFormed_of_load_afterCalls begins valid (same ▸ loaded)
  obtain ⟨left, written, holds, value, found⟩ :=
    Store.exists_found_of_run_set formed (h.valid_entryOf key text _ instant) ran
  refine ⟨left, written, text, holds, encoded, value, fun t => ?_⟩
  have count : ((seconds.toInt.toNat : Nat) : Int) = seconds.toInt :=
    Int.toNat_of_nonneg (Int.le_of_lt positive)
  have expires := h.isExpired_entryOf instant w.nanos_now key text seconds.toInt.toNat t
  rw [count] at expires
  refine (found t).trans ?_
  simp only [expires, decide_eq_true_eq]

private theorem storeSet_fst (inv : Invocation) (h : StoreHandle) (key : String) (value : Value)
    (positive : 0 < seconds.toInt) (w : World) :
    (((storeSet h key value (some seconds)).perform inv).run w).1 =
      (((storeSet h key value none).perform inv).run w).1 := by
  have same (lifetime other : Option Nat) :
      ((Host.request fun w => h.set key value lifetime w.now).run w).1 =
        ((Host.request fun w => h.set key value other w.now).run w).1 := by
    refine Host.request_fst (fun v => ?_) w
    obtain ⟨e, refused⟩ | ⟨text, -, accepted⟩ := h.set_alike key value
    · exact .inl ⟨e, refused lifetime v.now, refused other v.now⟩
    · refine .inr ⟨_, _, accepted lifetime v.now, accepted other v.now, fun s now => ?_⟩
      exact s.run_set_fst now (h.entryOf key text other v.now) (h.entryOf key text lifetime v.now)
        rfl rfl h.limits.maxKeys
  rw [run_storeSet, run_storeSet, Invocation.lifetime_of_pos positive]
  exact congrArg (Except.map fun _ => Value.unit) (same _ none)

private theorem storeGet_of_answers (inv : Invocation) (h : StoreHandle) (key : String)
    (answers : w.StoreAnswers) : ∃ left, ((storeGet h key).perform inv).run w =
      ((w.store.run left.now ((StoreCommand.get key).action h left.now)).1.mapError .store, left) := by
  have made (v : World) (_ : v.now = w.now) :
      h.get key = .ok ((StoreCommand.get key).action h w.now) := rfl
  exact Host.run_request_of_answers (r := fun _ => h.get key) answers made

private theorem run_get_of_storeGet
    (ok : ((storeGet h key).perform inv).run w = (.ok given, after)) :
    (w.store.run after.now ((StoreCommand.get key).action h after.now)).1 = .ok given := by
  have requested : (Host.request fun _ => h.get key).run w = (.ok given, after) := ok
  obtain ⟨v, action, -, made, ran⟩ := Host.exists_action_of_request requested
  have same : (StoreCommand.get key).action h after.now = action := Except.ok.inj made
  rw [same, ran]

private theorem shows_of_holds {s : Store} {guild : String} {space : Keyspace}
    (holds : s.Holds guild space)
    {found : Instant → Except StoreError Value}
    (stands : ∀ t, StoreHandle.valueOf? (space.get? key t) = found t) : s.Shows guild key found := by
  intro calls valid spared reader own
  subst own
  obtain ⟨last, holdsLast, same⟩ := holds.afterCalls_of_spared valid spared
  have looks (t : Instant) (order : ∀ event ∈ calls, event.1 ≤ t) :
      ((s.afterCalls calls).run t ((StoreCommand.get key).action reader t)).1 = found t := by
    rw [StoreCommand.run_get holdsLast, same t order, stands t]
  refine ⟨looks, fun inv w left result shared ran order => ⟨fun answers => ?_, ?_⟩⟩
  · obtain ⟨reached, answered⟩ := storeGet_of_answers inv reader key answers
    obtain ⟨rfl, rfl⟩ := Prod.mk.inj (ran.symm.trans answered)
    rw [shared, looks left.now order]
  · rintro v rfl
    have answered := run_get_of_storeGet ran
    rw [shared, looks left.now order] at answered
    exact answered

/-- A lifetime that is not positive is refused, and nothing else happens. Any other has no part in whether
the value can be stored. Once it is stored, it is found until its lifetime is over, and unit from then on.
What is found is the value. -/
theorem lifetime_exact (inv : Invocation) (h : StoreHandle) (key : String) (value : Value)
    (seconds : Int64) (w : World) :
    let storing (seconds : Option Int64) := ((storeSet h key value seconds).perform inv).run w
    (seconds.toInt ≤ 0 → storing (some seconds) = (.error (.invalidArgument
      ("ttl must be a positive number of seconds, got " ++ toString seconds.toInt)), w)) ∧
    (0 < seconds.toInt → (storing (some seconds)).1 = (storing none).1) ∧
    ∀ given after, storing (some seconds) = (.ok given, after) → w.store.Reached → w.now.Valid →
      ∃ kept : Except StoreError Value,
        (value.InKeyOrder → kept = .ok value) ∧
        after.store.Shows h.guild key fun t =>
          if w.now.LifetimeOver seconds.toInt t then .ok .unit else kept := by
  intro storing
  refine ⟨fun refused => ?_, fun positive => storeSet_fst inv h key value positive w, ?_⟩
  · change ((storeSet h key value (some seconds)).perform inv).run w = _
    rw [run_storeSet, Invocation.lifetime_of_nonpos refused]
  · intro given after stored reached instant
    obtain ⟨space, written, text, holds, encoded, rfl, stands⟩ :=
      exists_found_of_storeSet stored reached instant
    refine ⟨StoreHandle.valueOf written, fun ordered => StoreHandle.valueOf_eq_ok
      (Value.ofJsonText_of_toJsonText ordered encoded), shows_of_holds holds fun t => ?_⟩
    rw [stands t]
    exact apply_ite StoreHandle.valueOf? _ none (some written)

end Call

def twoKeyHandle : StoreHandle := { guild := "42", limits := .withMaxKeys 2 }

def minuteOfSeven : Except RunError Value × World :=
  ((Call.storeSet twoKeyHandle "k" (.int 7) (some 60)).perform plainInvocation).run freshWorld

/-- Another key is written, and an update of the number is refused. -/
def minuteCalls : List (Instant × StoreCall) :=
  [(⟨1800000010, 0⟩, .request twoKeyHandle (.set "other" (.int 1) none)),
    (⟨1800000059, 0⟩, .operation (.update "42" "k" 2 fun _ => .error (.overflow "k")))]

theorem minuteOfSeven_found :
    let later := minuteOfSeven.2.store.afterCalls minuteCalls
    let w : World := { freshWorld with clock := 60000000000, store := later }
    ((Call.storeSet twoKeyHandle "k" (.int 7) (some 0)).perform plainInvocation).run freshWorld =
        (.error (.invalidArgument "ttl must be a positive number of seconds, got 0"), freshWorld) ∧
      minuteOfSeven.1 = .ok .unit ∧
      minuteOfSeven.2.store.EntrySpared "42" "k" minuteCalls ∧
      (later.run ⟨1800000059, 999999999⟩ ((StoreCommand.get "k").action twoKeyHandle
        ⟨1800000059, 999999999⟩)).1 = .ok (.int 7) ∧
      (later.run ⟨1800000060, 0⟩ ((StoreCommand.get "k").action twoKeyHandle ⟨1800000060, 0⟩)).1 =
        .ok .unit ∧
      (((Call.storeGet twoKeyHandle "k").perform plainInvocation).run w).1 = .ok .unit := by
  intro later w
  have stored : minuteOfSeven.1 = .ok .unit := by rfl
  have reached : freshWorld.store.Reached := ⟨.memory {}, [], .inl rfl, nofun, rfl⟩
  have valid : ∀ event ∈ minuteCalls, event.2.Valid event.1 := by
    refine List.forall_mem_cons.2 ⟨⟨by decide, nofun⟩, List.forall_mem_cons.2 ⟨⟨by decide, ?_⟩, nofun⟩⟩
    intro o same
    cases same
    trivial
  have spared : minuteOfSeven.2.store.EntrySpared "42" "k" minuteCalls :=
    ⟨.inl fun _ => by simp [StoreCommand.changedKey?], .inr (by decide +kernel), trivial⟩
  have refused :=
    (Call.lifetime_exact plainInvocation twoKeyHandle "k" (.int 7) 0 freshWorld).1 (by decide)
  obtain ⟨kept, whole, shows⟩ :=
    (Call.lifetime_exact plainInvocation twoKeyHandle "k" (.int 7) 60 freshWorld).2.2 .unit
      minuteOfSeven.2 (Prod.ext stored rfl) reached (by decide)
  obtain ⟨looks, scripts⟩ := shows minuteCalls valid spared twoKeyHandle rfl
  have early := (looks ⟨1800000059, 999999999⟩ (by decide)).trans (if_neg (by decide))
  have late := (looks ⟨1800000060, 0⟩ (by decide)).trans (if_pos (by decide))
  have returns : (((Call.storeGet twoKeyHandle "k").perform plainInvocation).run w).2.now =
      ⟨1800000060, 0⟩ := by decide +kernel
  refine ⟨refused, stored, spared, early.trans (whole trivial), late, ?_⟩
  rcases ran : ((Call.storeGet twoKeyHandle "k").perform plainInvocation).run w with ⟨result, left⟩
  rw [ran] at returns
  have after : ∀ event ∈ minuteCalls, event.1 ≤ left.now := by
    rw [returns]
    decide
  have ended : freshWorld.now.LifetimeOver 60 left.now := by
    rw [returns]
    decide
  have asked := (scripts plainInvocation w left result rfl ran after).1 ⟨rfl, 0, rfl, rfl⟩
  exact asked.trans (congrArg (Except.mapError RunError.store) (if_pos ended))

end GuildSandbox

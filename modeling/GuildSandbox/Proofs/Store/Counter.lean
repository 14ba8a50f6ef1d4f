import Mathlib.Algebra.BigOperators.Group.List.Basic
import GuildSandbox.Proofs.Store.Commands
import GuildSandbox.Proofs.Store.Expiry

/-!
Counters that many runs increase.

Each operation of a run on the store is one atomic turn, and the turns of all runs come in some order.
While a key is only ever increased, its value is what it was before plus the differences of those
increases that have succeeded: none is lost and none counts twice, whatever the other turns do to other
keys and guilds.
-/

set_option autoImplicit false
set_option relaxedAutoImplicit false

namespace GuildSandbox

open Time (Instant)

/-- An atomic turn of a run at the store: any operation, or an increase of the counter. -/
inductive StoreTurn where
  | operation (now : Instant) (o : StoreOperation)
  | increase (now : Instant) (h : StoreHandle) (delta : Int64)

namespace StoreOperation

def Avoids (guild key : String) : StoreOperation → Prop
  | .set entry _ => entry.guild = guild → entry.key ≠ key
  | .update g k _ _ | .delete g k => g = guild → k ≠ key
  | .get _ _ | .count _ | .search _ _ => True

def WritesValid : StoreOperation → Prop
  | .set entry _ => entry.Valid
  | _ => True

end StoreOperation

namespace StoreTurn

def now : StoreTurn → Instant
  | .operation now _ | .increase now _ _ => now

/-- Increases of the counter go by handles of its guild that admit its key, and nothing else writes
under that key. -/
def OnlyIncreases (guild key : String) : StoreTurn → Prop
  | .operation _ o => o.Avoids guild key
  | .increase _ h _ => h.guild = guild ∧ key.utf8ByteSize ≤ h.limits.maxKeyLength

def Valid : StoreTurn → Prop
  | .operation now o => now.Valid ∧ o.WritesValid
  | .increase now _ _ => now.Valid

def run (s : Store) (key : String) : StoreTurn → Store
  | .operation now o => (s.run now o.perform).2
  | .increase now h delta => (s.run now ((StoreCommand.increase key delta).action h now)).2

/-- The difference that the turn has added to the counter, if it is an increase that succeeded. -/
def gain? (s : Store) (key : String) : StoreTurn → Option Int64
  | .operation _ _ => none
  | .increase now h delta =>
    match (s.run now ((StoreCommand.increase key delta).action h now)).1 with
    | .ok _ => some delta
    | .error _ => none

def delta? : StoreTurn → Option Int64
  | .operation _ _ => none
  | .increase _ _ delta => some delta

end StoreTurn

namespace Store

def afterTurns (s : Store) (key : String) (turns : List StoreTurn) : Store :=
  turns.foldl (fun s turn => turn.run s key) s

/-- The differences that have been added to the counter in these turns. -/
def gains (s : Store) (key : String) : List StoreTurn → List Int64
  | [] => []
  | turn :: rest => (turn.gain? s key).toList ++ (turn.run s key).gains key rest

end Store

/-- What is found under the key counts as the number: an entry with that integer, or nothing as zero. -/
def CountsAs (current : Option Entry) (n : Int) : Prop :=
  match current with
  | some entry => ∃ m : Int64, m.toInt = n ∧ StoreHandle.valueOf entry = .ok (.int m)
  | none => n = 0

/-- A store holds a counter: at all instants of the turns to come and at `t`, the same entry is found
under the key and counts as `n`, and the turns write nothing there but increases. -/
structure HoldsCounter (s : Store) (guild key : String) (current : Option Entry) (n : Int)
    (turns : List StoreTurn) (t : Instant) : Prop where
  found : ∃ space, s.Holds guild space ∧
    ∀ now ∈ t :: turns.map StoreTurn.now, space.get? key now = current
  counts : CountsAs current n
  alone : ∀ turn ∈ turns, turn.OnlyIncreases guild key
  valid : ∀ turn ∈ turns, turn.Valid
  instant : t.Valid

/-- What an increase of a counter by `delta` has to answer, given whether the key is new to a guild that
is full. -/
def increaseAnswer (h : StoreHandle) (key : String) (n : Int) (delta : Int64) (full : Bool) :
    Except StoreError Value :=
  if full then .error (.quotaExceeded h.limits.maxKeys)
  else match Number.Binary64.int64? (n + delta.toInt) with
    | some sum => .ok (.int sum)
    | none => .error (.overflow key)

namespace Keyspace

variable {space : Keyspace} {now t : Instant} {key : String}

private theorem filter_get?_of_same (same : space.get? key now = space.get? key t) :
    (space.get? key now).filter (fun e => e.isLive t) = space.get? key t := by
  rw [same, get?, Option.filter_filter]
  simp only [Bool.and_self]

theorem get?_purge_of_same (ordered : Dict.Ordered space)
    (same : space.get? key now = space.get? key t) :
    (space.purge now).get? key t = space.get? key t := by
  rw [get?_purge ordered, filter_get?_of_same same]

private theorem Untouched.get?_of_same {left : Keyspace} (untouched : Untouched now space left)
    (ordered : Dict.Ordered space) (same : space.get? key now = space.get? key t) :
    left.get? key t = space.get? key t := by
  rcases untouched with rfl | rfl
  · rfl
  · exact get?_purge_of_same ordered same

private theorem get?_onKeyspace (ordered : Dict.Ordered space) {o : StoreOperation}
    (avoids : o.Avoids o.guild key) (same : space.get? key now = space.get? key t) :
    (o.onKeyspace space now).2.get? key t = space.get? key t := by
  have purged := get?_purge_of_same ordered same
  cases o with
  | get g k => rfl
  | count g => rfl
  | search g pattern => rfl
  | set entry maxKeys =>
    have other : key ≠ entry.key := Ne.symm (avoids rfl)
    simp only [StoreOperation.onKeyspace, set_eq ordered]
    split
    · exact purged
    · rw [get?_insert_of_ne other, purged]
  | update g k maxKeys next =>
    have other : key ≠ k := Ne.symm (avoids rfl)
    simp only [StoreOperation.onKeyspace, update_eq ordered]
    split
    · exact purged
    · split
      · rw [get?_insert_of_ne other, purged]
      · exact purged
  | delete g k =>
    have other : key ≠ k := Ne.symm (avoids rfl)
    simp only [StoreOperation.onKeyspace, delete_eq ordered]
    rw [get?_erase_of_ne (ordered_purge ordered now) other, purged]

end Keyspace

namespace Store

open Keyspace

variable {s : Store} {guild key : String} {space : Keyspace} {now : Instant} {o : StoreOperation}

/-- An operation has its answer from the keyspace of its guild, and the store holds what it leaves, or
what it held before when nothing has changed. -/
theorem Holds.run_perform (holds : s.Holds o.guild space) (instant : now.Valid)
    (valid : o.WritesValid) :
    ∃ after left, s.run now o.perform = ((o.onKeyspace space now).1, after) ∧
      after.Holds o.guild left ∧ (left = (o.onKeyspace space now).2 ∨ left = space) := by
  cases o with
  | get g k =>
    change s.Holds g space at holds
    exact ⟨s, space, by rw [StoreOperation.perform, run_map, holds.run_get]; rfl, holds, .inr rfl⟩
  | count g =>
    change s.Holds g space at holds
    exact ⟨s, space, by rw [StoreOperation.perform, run_map, Store.count, holds.run_look]; rfl, holds,
      .inr rfl⟩
  | search g pattern =>
    change s.Holds g space at holds
    exact ⟨s, space, by rw [StoreOperation.perform, run_map, Store.search, holds.run_look]; rfl, holds,
      .inr rfl⟩
  | set entry maxKeys =>
    change s.Holds entry.guild space at holds
    obtain ⟨after, left, ran, holdsAfter, which⟩ := holds.run_set valid maxKeys
    exact ⟨after, left, by rw [StoreOperation.perform, run_map, ran]; rfl, holdsAfter,
      which.imp id And.right⟩
  | update g k maxKeys next =>
    change s.Holds g space at holds
    obtain ⟨after, left, ran, holdsAfter, which⟩ := holds.run_update instant k maxKeys next
    exact ⟨after, left, by rw [StoreOperation.perform, run_map, ran]; rfl, holdsAfter,
      which.imp id And.right⟩
  | delete g k =>
    change s.Holds g space at holds
    obtain ⟨after, left, ran, holdsAfter, which⟩ := holds.run_delete now k
    exact ⟨after, left, by rw [StoreOperation.perform, run_map, ran]; rfl, holdsAfter,
      which.imp id And.right⟩

private theorem Holds.perform_of_ne (holds : s.Holds guild space) (other : guild ≠ o.guild) :
    (s.run now o.perform).2.Holds guild space := by
  cases o with
  | get g k => rw [StoreOperation.perform, run_map, Store.get, run_look_snd]; exact holds
  | count g => rw [StoreOperation.perform, run_map, Store.count, run_look_snd]; exact holds
  | search g pattern => rw [StoreOperation.perform, run_map, Store.search, run_look_snd]; exact holds
  | set entry maxKeys =>
    rw [StoreOperation.perform, run_map]
    exact holds.run_change_of_ne other _ _
  | update g k maxKeys next =>
    rw [StoreOperation.perform, run_map]
    exact holds.run_change_of_ne other _ _
  | delete g k =>
    rw [StoreOperation.perform, run_map]
    exact holds.run_change_of_ne other _ _

/-- An operation that does not write under the key leaves what is found there at any instant that
finds the same as its own. -/
theorem Holds.perform_of_avoids (holds : s.Holds guild space) (instant : now.Valid)
    (valid : o.WritesValid) (avoids : o.Avoids guild key) :
    ∃ left, (s.run now o.perform).2.Holds guild left ∧
      ∀ t, space.get? key now = space.get? key t → left.get? key t = space.get? key t := by
  by_cases own : guild = o.guild
  · subst own
    obtain ⟨after, left, ran, holdsAfter, which⟩ := holds.run_perform instant valid
    refine ⟨left, by rw [ran]; exact holdsAfter, fun t same => ?_⟩
    rcases which with rfl | rfl
    · exact get?_onKeyspace holds.formed.ordered avoids same
    · rfl
  · exact ⟨space, holds.perform_of_ne own, fun t _ => rfl⟩

end Store

theorem Keyspace.isLive_revised {space : Keyspace} {now t : Instant} {guild key text : String}
    (same : space.get? key now = space.get? key t) :
    (revised guild key text now (space.get? key now)).isLive t = true := by
  rw [same]
  cases found : space.get? key t with
  | none => rfl
  | some old => exact (Option.filter_eq_some_iff.1 found).2

namespace CountsAs

variable {current : Option Entry} {n : Int} {key : String} {delta : Int64}

private theorem increased_eq (counts : CountsAs current n) (key : String) (delta : Int64) :
    StoreHandle.increased key delta current =
      match Number.Binary64.int64? (n + delta.toInt) with
      | some sum => .ok (.int sum)
      | none => .error (.overflow key) := by
  cases current with
  | none => rw [show n = 0 from counts, Int.zero_add, Number.Binary64.int64?_toInt]; rfl
  | some entry =>
    obtain ⟨m, rfl, reads⟩ := counts
    exact StoreHandle.increased_some reads key delta

private theorem valueOf?_eq (counts : CountsAs current n) : ∃ m : Int64, m.toInt = n ∧
    StoreHandle.valueOf? current = .ok (if current.isNone then .unit else .int m) := by
  cases current with
  | none => exact ⟨0, by rw [show n = 0 from counts]; rfl, rfl⟩
  | some entry => exact counts

end CountsAs

namespace Store

open Keyspace StoreCommand

variable {s : Store} {guild key : String} {space : Keyspace} {now t : Instant} {h : StoreHandle}
  {n : Int} {delta : Int64}

/-- An increase of a counter answers as it has to. When it fails it has written nothing, and when it
succeeds the sum is found at every instant that finds the same as its own. -/
private theorem Holds.increase_counter (holds : s.Holds h.guild space) (instant : now.Valid)
    (admits : key.utf8ByteSize ≤ h.limits.maxKeyLength) (counts : CountsAs (space.get? key now) n)
    (delta : Int64) :
    ∃ result after left,
      s.run now ((increase key delta).action h now) = (result, after) ∧
      after.Holds h.guild left ∧
      result = increaseAnswer h key n delta (space.isFull key h.limits.maxKeys now) ∧
      ((∃ e, result = .error e) ∧ Untouched now space left ∨
        ∃ value entry, result = .ok value ∧ CountsAs (some entry) (n + delta.toInt) ∧
          ∀ t, space.get? key now = space.get? key t → left.get? key t = some entry) := by
  obtain ⟨result, after, left, ran, holdsAfter, outcome⟩ :=
    StoreCommand.run_increase holds instant admits delta
  refine ⟨result, after, left, ran, holdsAfter, ?_⟩
  have sum := counts.increased_eq key delta
  rcases outcome with ⟨full, refused, untouched⟩ | ⟨fits, ⟨e, made, failed, untouched⟩ |
    ⟨value, text, entry, made, -, back, which, answered, rfl⟩⟩
  · exact ⟨by rw [refused, full]; rfl, .inl ⟨⟨_, refused⟩, untouched⟩⟩
  · cases inside : Number.Binary64.int64? (n + delta.toInt) with
    | some sum' =>
      rw [StoreHandle.sumText, sum, inside] at made
      cases made
    | none =>
      rw [StoreHandle.sumText, sum, inside] at made
      cases made
      exact ⟨by rw [failed, fits, increaseAnswer, inside]; rfl, .inl ⟨⟨_, failed⟩, untouched⟩⟩
  · cases inside : Number.Binary64.int64? (n + delta.toInt) with
    | none =>
      rw [sum, inside] at made
      cases made
    | some total =>
      rw [sum, inside] at made
      cases made
      have holdsSum : StoreHandle.valueOf entry = .ok (.int total) :=
        StoreHandle.valueOf_eq_ok (by rw [which, value_revised, back])
      have counted : CountsAs (some entry) (n + delta.toInt) :=
        ⟨total, Number.Binary64.toInt_of_int64? inside, holdsSum⟩
      refine ⟨by rw [answered, fits, increaseAnswer, inside]; rfl,
        .inr ⟨.int total, entry, answered, counted, fun t same => ?_⟩⟩
      rw [get?_insert_self, Option.filter_some, if_pos]
      rw [which]
      exact isLive_revised same

end Store

section

variable {s : Store} {guild key : String} {current : Option Entry} {n : Int}
  {turns rest : List StoreTurn} {turn : StoreTurn} {t : Instant}

private theorem HoldsCounter.step (counter : HoldsCounter s guild key current n (turn :: rest) t) :
    ∃ after, HoldsCounter (turn.run s key) guild key after
        (n + ((turn.gain? s key).toList.map Int64.toInt).sum) rest t ∧
      after.isNone = (current.isNone && (turn.gain? s key).isNone) := by
  obtain ⟨space, holds, steady⟩ := counter.found
  have alone := List.forall_mem_cons.1 counter.alone
  have valid := List.forall_mem_cons.1 counter.valid
  have here : space.get? key turn.now = current := steady _ (by simp)
  -- What a turn leaves needs to be compared at its own instant only.
  have later : ∀ u ∈ t :: rest.map StoreTurn.now, space.get? key turn.now = space.get? key u := by
    intro u member
    rw [here, steady u (by simp only [List.map_cons, List.mem_cons] at member ⊢; tauto)]
  cases turn with
  | operation now o =>
    obtain ⟨left, holdsAfter, same⟩ :=
      holds.perform_of_avoids valid.1.1 valid.1.2 alone.1
    refine ⟨current, ⟨⟨left, holdsAfter, fun u member => ?_⟩, ?_, alone.2, valid.2,
      counter.instant⟩, ?_⟩
    · rw [same u (later u member), ← later u member, here]
    · simpa [StoreTurn.gain?] using counter.counts
    · simp [StoreTurn.gain?]
  | increase now h delta =>
    obtain ⟨rfl, admits⟩ := alone.1
    obtain ⟨result, after, left, ran, holdsAfter, -, outcome⟩ :=
      holds.increase_counter valid.1 admits (here ▸ counter.counts) delta
    have kept : (StoreTurn.increase now h delta).run s key = after := congrArg Prod.snd ran
    rcases outcome with ⟨⟨e, failed⟩, untouched⟩ | ⟨value, entry, made, counts, found⟩
    · have gained : (StoreTurn.increase now h delta).gain? s key = none := by
        rw [StoreTurn.gain?, ran, failed]
      rw [kept, gained]
      refine ⟨current, ⟨⟨left, holdsAfter, fun u member => ?_⟩, ?_, alone.2, valid.2,
        counter.instant⟩, ?_⟩
      · rw [untouched.get?_of_same holds.formed.ordered (later u member), ← later u member, here]
      · simpa using counter.counts
      · simp
    · have gained : (StoreTurn.increase now h delta).gain? s key = some delta := by
        rw [StoreTurn.gain?, ran, made]
      rw [kept, gained]
      refine ⟨some entry, ⟨⟨left, holdsAfter, fun u member => found u (later u member)⟩, ?_, alone.2,
        valid.2, counter.instant⟩, ?_⟩
      · simpa using counts
      · simp

private theorem HoldsCounter.afterTurns (counter : HoldsCounter s guild key current n turns t) :
    ∃ after, HoldsCounter (s.afterTurns key turns) guild key after
        (n + ((s.gains key turns).map Int64.toInt).sum) [] t ∧
      after.isNone = (current.isNone && (s.gains key turns).isEmpty) := by
  induction turns generalizing s current n with
  | nil => exact ⟨current, by simpa [Store.afterTurns, Store.gains] using counter, by simp [Store.gains]⟩
  | cons turn rest ih =>
    obtain ⟨next, step, absent⟩ := counter.step
    obtain ⟨after, run, absentAfter⟩ := ih step
    refine ⟨after, ?_, ?_⟩
    · simpa [Store.afterTurns, Store.gains, Int.add_assoc] using run
    · rw [absentAfter, absent, Store.gains]
      cases turn.gain? s key <;> simp

private theorem HoldsCounter.run_get (counter : HoldsCounter s guild key current n turns t)
    {h : StoreHandle} (own : h.guild = guild) :
    (s.run t ((StoreCommand.get key).action h t)).1 = StoreHandle.valueOf? current := by
  subst own
  obtain ⟨space, holds, steady⟩ := counter.found
  rw [StoreCommand.run_get holds, steady t List.mem_cons_self]

private theorem HoldsCounter.perm (counter : HoldsCounter s guild key current n turns t)
    {order : List StoreTurn} (perm : order.Perm turns) :
    HoldsCounter s guild key current n order t := by
  obtain ⟨space, holds, steady⟩ := counter.found
  refine ⟨⟨space, holds, fun u member => steady u ?_⟩, counter.counts,
    fun turn member => counter.alone turn (perm.mem_iff.1 member),
    fun turn member => counter.valid turn (perm.mem_iff.1 member), counter.instant⟩
  exact ((perm.map StoreTurn.now).cons t).mem_iff.1 member

/-- A counter comes to what it was and the sum of the differences of just those increases that have
succeeded, each of which has answered the sum so far. One more increase is refused when its sum is no
64-bit integer, or when the key is new and the guild full, and then the entry stays as it is. The order
of the turns does not matter as long as every increase succeeds. -/
theorem HoldsCounter.sum_of_gains (counter : HoldsCounter s guild key current n turns t) :
    let after := s.afterTurns key turns
    let total := n + ((s.gains key turns).map Int64.toInt).sum
    let absent := current.isNone && (s.gains key turns).isEmpty
    ∃ (m : Int64) (size : Nat), m.toInt = total ∧ (after.run t (Store.count guild)).1 = .ok size ∧
      ∀ h : StoreHandle, h.guild = guild →
        (after.run t ((StoreCommand.get key).action h t)).1 =
          .ok (if absent then .unit else .int m) ∧
        (key.utf8ByteSize ≤ h.limits.maxKeyLength → ∀ delta,
          let ran := after.run t ((StoreCommand.increase key delta).action h t)
          ran.1 = increaseAnswer h key total delta (absent && decide (h.limits.maxKeys ≤ size)) ∧
          ∀ e, ran.1 = .error e → ∀ u, t ≤ u →
            (ran.2.run u (Store.get guild key)).1 = (after.run u (Store.get guild key)).1) ∧
        ∀ order : List StoreTurn, order.Perm turns →
          s.gains key turns = turns.filterMap StoreTurn.delta? →
          s.gains key order = order.filterMap StoreTurn.delta? →
          ((s.afterTurns key order).run t ((StoreCommand.get key).action h t)).1 =
            (after.run t ((StoreCommand.get key).action h t)).1 := by
  intro after total absent
  obtain ⟨reached, counterAfter, absentAfter⟩ := counter.afterTurns
  obtain ⟨space, holds, steady⟩ := counterAfter.found
  have here : space.get? key t = reached := steady t List.mem_cons_self
  obtain ⟨m, sum, worth⟩ := counterAfter.counts.valueOf?_eq
  refine ⟨m, space.count t, sum, congrArg Prod.fst (holds.run_look t Keyspace.count), ?_⟩
  intro h own
  refine ⟨?_, fun admits delta => ?_, fun order perm allHere allThere => ?_⟩
  · rw [counterAfter.run_get own, worth, absentAfter]
  · intro ran
    subst own
    obtain ⟨result, left, kept, increased, holdsAfter, answers, outcome⟩ :=
      holds.increase_counter counterAfter.instant admits (here ▸ counterAfter.counts) delta
    have same : ran = (result, left) := increased
    rw [same]
    refine ⟨?_, fun e failed u order => ?_⟩
    · rw [answers, Keyspace.isFull, here, absentAfter]
    · rcases outcome with ⟨-, untouched⟩ | ⟨value, entry, made, -⟩
      · rw [holdsAfter.run_get, untouched.get?_of_le holds.formed.ordered order, holds.run_get]
      · cases made.symm.trans failed
  · obtain ⟨reachedThere, counterThere, absentThere⟩ := (counter.perm perm).afterTurns
    have gains : (s.gains key order).Perm (s.gains key turns) := by
      rw [allHere, allThere]
      exact perm.filterMap _
    rw [counterAfter.run_get own, counterThere.run_get own]
    obtain ⟨mThere, sumThere, worthThere⟩ := counterThere.counts.valueOf?_eq
    rw [(gains.map Int64.toInt).sum_eq] at sumThere
    rw [worth, worthThere, absentAfter, absentThere, gains.isEmpty_eq,
      Int64.toInt_inj.1 (sumThere.trans sum.symm)]

end

/-- A visit counter that two runs increase while another key is written. -/
def visitTurns : List StoreTurn :=
  let h : StoreHandle := { guild := "1", limits := .withMaxKeys 2 }
  [.increase ⟨0, 0⟩ h 5,
    .operation ⟨1, 0⟩ (.set { guild := "1", key := "other", value := "\x7b\x7d"
                              createdAt := ⟨1, 0⟩, updatedAt := ⟨1, 0⟩ } 2),
    .increase ⟨1, 0⟩ h Int64.maxValue,
    .increase ⟨1, 0⟩ h (-2)]

theorem visitTurns_sum :
    HoldsCounter (.memory {}) "1" "visits" none 0 visitTurns ⟨2, 0⟩ ∧
      (Store.memory {}).gains "visits" visitTurns = [5, -2] ∧
      ∀ h : StoreHandle, h.guild = "1" →
        (((Store.memory {}).afterTurns "visits" visitTurns).run ⟨2, 0⟩
          ((StoreCommand.get "visits").action h ⟨2, 0⟩)).1 = .ok (.int 3) := by
  have valid : (⟨0, 0⟩ : Instant).Valid ∧ (⟨1, 0⟩ : Instant).Valid ∧ (⟨2, 0⟩ : Instant).Valid := by
    decide
  have counter : HoldsCounter (.memory {}) "1" "visits" none 0 visitTurns ⟨2, 0⟩ := by
    refine ⟨⟨[], Store.IsEmptyFor.holds (.inl rfl), fun _ _ => rfl⟩, rfl, ?_, ?_, valid.2.2⟩
    · have admits : "visits".utf8ByteSize ≤ 256 := by decide
      simp [visitTurns, StoreTurn.OnlyIncreases, StoreOperation.Avoids, StoreLimits.withMaxKeys,
        admits]
    · simp [visitTurns, StoreTurn.Valid, StoreOperation.WritesValid, Entry.Valid, valid]
  have gains : (Store.memory {}).gains "visits" visitTurns = [5, -2] := by decide +kernel
  refine ⟨counter, gains, fun h own => ?_⟩
  obtain ⟨m, size, sum, -, answers⟩ := counter.sum_of_gains
  rw [gains] at sum
  have three : m = 3 := Int64.toInt_inj.1 sum
  rw [(answers h own).1, gains, three]
  rfl

end GuildSandbox

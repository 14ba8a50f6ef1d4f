import GuildSandbox.Proofs.Run.Cancellation
import GuildSandbox.Proofs.Run.Clocks
import Mathlib.Order.Interval.Finset.Nat

/-!
What idle guards measure.

Guards that are given back newest first are nested. The oldest one opened the idle interval and is the
last to go, the others own nothing, so that the interval is open exactly while a guard is held. The idle
time is then the number of clock readings at which some guard was held, and the readings at which none
was held are what counts towards the duration limit.
-/

set_option autoImplicit false
set_option relaxedAutoImplicit false

namespace GuildSandbox

open Finset

namespace AccountTurn

/-- The number of guards after a turn, when so many were held before it. -/
def heldAfter (held : Nat) : AccountTurn → Nat
  | .enterIdle => held + 1
  | .leaveIdle _ => held - 1
  | _ => held

/-- The turn takes a guard, gives the newest of so many guards back, or leaves the clocks alone. -/
def IsNested (held : Nat) : AccountTurn → Prop
  | .enterIdle => True
  | .leaveIdle place => place + 1 = held
  | turn => turn.keepsTime = false

end AccountTurn

/-- The number of guards after turns, when so many were held before them. -/
def guardsHeld (held : Nat) (turns : List (Nat × AccountTurn)) : Nat :=
  turns.foldl (fun held turn => turn.2.heldAfter held) held

/-- The number of guards held from a reading of the clock on: after the turns up to it. -/
def guardsAt (held : Nat) (turns : List (Nat × AccountTurn)) (t : Nat) : Nat :=
  guardsHeld held (turns.filter fun turn => turn.1 ≤ t)

/-- Guards are given back newest first, and nothing else touches the clocks. -/
def LastInFirstOut (held : Nat) : List (Nat × AccountTurn) → Prop
  | [] => True
  | (_, turn) :: rest => turn.IsNested held ∧ LastInFirstOut (turn.heldAfter held) rest

/-- The time between two readings of the clock during which at least one guard was held. -/
def guardedTime (held first : Nat) (turns : List (Nat × AccountTurn)) (last : Nat) : Nat :=
  #{t ∈ Ico first last | 0 < guardsAt held turns t}

/-- The time between two readings of the clock during which no guard was held. -/
def unguardedTime (held first : Nat) (turns : List (Nat × AccountTurn)) (last : Nat) : Nat :=
  #{t ∈ Ico first last | guardsAt held turns t = 0}

/-- The guards of a nest, the oldest first: that one owns the idle interval, and no other does. -/
def nestOf : Nat → List IdleGuard
  | 0 => []
  | inner + 1 => { owner := true } :: List.replicate inner { owner := false }

@[simp] theorem length_nestOf (held : Nat) : (nestOf held).length = held := by
  cases held <;> simp [nestOf]

section

variable {held first now last : Nat} {turn : AccountTurn} {turns rest : List (Nat × AccountTurn)}

private theorem guardedTime_add_unguardedTime (held first : Nat) (turns : List (Nat × AccountTurn))
    (last : Nat) :
    guardedTime held first turns last + unguardedTime held first turns last = last - first := by
  have none : ∀ t, guardsAt held turns t = 0 ↔ ¬ 0 < guardsAt held turns t := by
    intro t
    omega
  simp only [guardedTime, unguardedTime, none]
  rw [card_filter_add_card_filter_not, Nat.card_Ico]

private theorem guardedTime_nil (held first last : Nat) :
    guardedTime held first [] last = if 0 < held then last - first else 0 := by
  have constant : ∀ t, guardsAt held [] t = held := fun _ => rfl
  simp only [guardedTime, constant]
  by_cases some : 0 < held
  · simp [some]
  · simp [some]

private theorem SharedAccount.le_of_mem_ordered (order : SharedAccount.Ordered first turns last) :
    ∀ turn ∈ turns, first ≤ turn.1 := by
  induction turns generalizing first with
  | nil => nofun
  | cons head rest ih =>
    obtain ⟨here, order⟩ := SharedAccount.ordered_cons.mp order
    intro turn member
    obtain rfl | later := List.mem_cons.mp member
    · exact here
    · exact here.trans (ih order turn later)

private theorem SharedAccount.le_of_ordered (order : SharedAccount.Ordered first turns last) :
    first ≤ last := by
  induction turns generalizing first with
  | nil => exact SharedAccount.ordered_nil.mp order
  | cons head rest ih =>
    obtain ⟨here, order⟩ := SharedAccount.ordered_cons.mp order
    exact here.trans (ih order)

private theorem guardsAt_of_lt (order : SharedAccount.Ordered now rest last) {t : Nat}
    (before : t < now) :
    guardsAt held ((now, turn) :: rest) t = held := by
  have later : ∀ other ∈ (now, turn) :: rest, ¬ other.1 ≤ t := by
    intro other member
    obtain rfl | member := List.mem_cons.mp member
    · exact Nat.not_le.mpr before
    · have := SharedAccount.le_of_mem_ordered order other member
      omega
  have empty : ((now, turn) :: rest).filter (fun other => decide (other.1 ≤ t)) = [] := by
    rw [List.filter_eq_nil_iff]
    intro other member
    simpa using later other member
  rw [guardsAt, empty]
  rfl

/-- From the first turn on the guards are those that it leaves and the others take and give back. -/
private theorem guardsAt_of_le {t : Nat} (reached : now ≤ t) :
    guardsAt held ((now, turn) :: rest) t = guardsAt (turn.heldAfter held) rest t := by
  rw [guardsAt, List.filter_cons_of_pos (by simpa using reached)]
  rfl

private theorem guardedTime_cons (waited : first ≤ now)
    (order : SharedAccount.Ordered now rest last) :
    guardedTime held first ((now, turn) :: rest) last =
      (if 0 < held then now - first else 0) +
        guardedTime (turn.heldAfter held) now rest last := by
  have parts : Ico first last = Ico first now ∪ Ico now last :=
    (Ico_union_Ico_eq_Ico waited (SharedAccount.le_of_ordered order)).symm
  have apart : Disjoint (Ico first now) (Ico now last) := Ico_disjoint_Ico_consecutive first now last
  have before : #{t ∈ Ico first now | 0 < guardsAt held ((now, turn) :: rest) t} =
      #{t ∈ Ico first now | 0 < guardsAt held [] t} := by
    refine congrArg card (filter_congr fun t member => ?_)
    rw [guardsAt_of_lt order (mem_Ico.mp member).2]
    rfl
  have after : #{t ∈ Ico now last | 0 < guardsAt held ((now, turn) :: rest) t} =
      guardedTime (turn.heldAfter held) now rest last := by
    refine congrArg card (filter_congr fun t member => ?_)
    rw [guardsAt_of_le (mem_Ico.mp member).1]
  rw [guardedTime, parts, filter_union, card_union_of_disjoint (disjoint_filter_filter apart),
    before, after, ← guardedTime_nil held first now]
  rfl

end

namespace SharedAccount

variable {s : SharedAccount} {held first now last : Nat} {turn : AccountTurn}
  {turns : List (Nat × AccountTurn)}

/-- So many guards are held in a nest, and the idle interval is open exactly while there are any. -/
structure Nests (s : SharedAccount) (held : Nat) : Prop where
  guards : s.guards = nestOf held
  isOpen : s.account.idleStart.isSome = decide (0 < held)

private theorem guards_take_of_not_keepsTime (s : SharedAccount) (now : Nat)
    (other : turn.keepsTime = false) : (s.take now turn).2.guards = s.guards := by
  cases turn with
  | begin | markIdle | markActive | enterIdle | leaveIdle place => cases other
  | onStep n | addSteps n => rfl
  | cancel thread reason =>
    simp only [take]
    split <;> rfl
  | announce thread =>
    simp only [take]
    split <;> rfl

private theorem nests_enter (nests : s.Nests held) (now : Nat) :
    (s.take now .enterIdle).2.Nests (held + 1) := by
  obtain ⟨guards, isOpen⟩ := nests
  have taken : (s.take now .enterIdle).2.guards =
      s.guards ++ [{ owner := s.account.idleStart.isNone }] := rfl
  refine ⟨?_, ?_⟩
  · rw [taken, guards]
    cases held with
    | zero =>
      -- Nothing is open, so that the first guard becomes the owner.
      have closed : s.account.idleStart = none := by simpa using isOpen
      rw [closed]
      rfl
    | succ inner =>
      have opened : s.account.idleStart.isNone = false := by
        rw [← Option.not_isSome, isOpen]
        simp
      rw [opened, nestOf, nestOf, List.cons_append, List.replicate_succ']
  · simp only [take, GuardedAccount.enter, Account.enterIdle, Account.markIdle]
    cases found : s.account.idleStart with
    | some opened => simp [found]
    | none => simp

private theorem nests_leave {place : Nat} (nests : s.Nests (place + 1)) (now : Nat) :
    (s.take now (.leaveIdle place)).2.Nests place := by
  obtain ⟨guards, isOpen⟩ := nests
  have opened : s.account.idleStart.isSome = true := by simpa using isOpen
  cases place with
  | zero =>
    -- The last guard owns the interval and closes it.
    have newest : s.guards[0]? = some { owner := true } := by rw [guards]; rfl
    refine ⟨?_, ?_⟩
    · simp only [take, GuardedAccount.leaveAt, newest]
      rw [guards]
      rfl
    · simp only [take, GuardedAccount.leaveAt, newest, Account.leaveIdle, if_true,
        Account.markActive]
      cases found : s.account.idleStart with
      | some start => rfl
      | none => simp [found] at opened
  | succ inner =>
    have newest : s.guards[inner + 1]? = some { owner := false } := by
      rw [guards, nestOf, List.getElem?_cons_succ]
      simp
    refine ⟨?_, ?_⟩
    · simp only [take, GuardedAccount.leaveAt, newest]
      rw [guards, nestOf, nestOf, List.eraseIdx_cons_succ, List.eraseIdx_replicate]
      simp
    · simp only [take, GuardedAccount.leaveAt, newest, Account.leaveIdle]
      simpa using opened

private theorem nests_take (nests : s.Nests held) (now : Nat) (nested : turn.IsNested held) :
    (s.take now turn).2.Nests (turn.heldAfter held) := by
  cases turn with
  | enterIdle => exact nests_enter nests now
  | leaveIdle place =>
    obtain rfl : place + 1 = held := nested
    exact nests_leave nests now
  | begin | markIdle | markActive => cases nested
  | onStep n | addSteps n | cancel thread reason | announce thread =>
    obtain ⟨-, idleStart, -⟩ := s.take_of_not_keepsTime now nested
    exact ⟨(s.guards_take_of_not_keepsTime now nested).trans nests.guards,
      idleStart ▸ nests.isOpen⟩

private theorem Nests.idleDuration_later (nests : s.Nests held) (inStep : s.account.InStep first)
    (order : first ≤ last) : s.account.idleDuration last =
      s.account.idleDuration first + if 0 < held then last - first else 0 := by
  have isOpen := nests.isOpen
  have opened := inStep.opened
  unfold Account.idleDuration
  cases found : s.account.idleStart with
  | none =>
    rw [found] at isOpen
    have free : ¬ 0 < held := by simpa using isOpen.symm
    simp [free]
  | some start =>
    rw [found] at isOpen opened
    have guarded : 0 < held := by simpa using isOpen.symm
    rw [Option.getD_some] at opened
    rw [if_pos guarded]
    simp only
    omega

private theorem ne_begin_of_isNested (nested : turn.IsNested held) : turn ≠ .begin := by
  rintro rfl
  cases nested

private theorem nests_after (nests : s.Nests held) (inStep : s.account.InStep first)
    (order : Ordered first turns last) (lifo : LastInFirstOut held turns) :
    (s.after turns).Nests (guardsHeld held turns) ∧
      (s.after turns).account.idleDuration last =
        s.account.idleDuration first + guardedTime held first turns last := by
  induction turns generalizing s held first with
  | nil =>
    refine ⟨nests, ?_⟩
    rw [guardedTime_nil]
    exact nests.idleDuration_later inStep (ordered_nil.mp order)
  | cons head rest ih =>
    obtain ⟨now, turn⟩ := head
    obtain ⟨waited, order⟩ := ordered_cons.mp order
    obtain ⟨nested, lifo⟩ := lifo
    obtain ⟨nest, later⟩ := ih (nests_take nests now nested)
      (inStep_take turn (inStep.mono waited)) order lifo
    refine ⟨nest, ?_⟩
    calc (s.after ((now, turn) :: rest)).account.idleDuration last
        = (s.take now turn).2.account.idleDuration now +
            guardedTime (turn.heldAfter held) now rest last := later
      _ = s.account.idleDuration now + guardedTime (turn.heldAfter held) now rest last := by
          rw [(s.durations_take now (ne_begin_of_isNested nested)).1]
      _ = s.account.idleDuration first + ((if 0 < held then now - first else 0) +
            guardedTime (turn.heldAfter held) now rest last) := by
          rw [nests.idleDuration_later inStep waited, Nat.add_assoc]
      _ = s.account.idleDuration first + guardedTime held first ((now, turn) :: rest) last := by
          rw [guardedTime_cons waited order]

private theorem start_take (nested : turn.IsNested held) :
    (s.take now turn).2.account.start = s.account.start := by
  cases timing : turn.keepsTime with
  | false => exact (s.take_of_not_keepsTime now timing).1
  | true =>
    obtain ⟨guards, same | ⟨begun, -⟩ | ⟨-, taken⟩ | ⟨opened, -, taken⟩⟩ :=
      s.take_of_keepsTime now timing
    · rw [same]
    · exact absurd begun (ne_begin_of_isNested nested)
    · rw [taken]
    · rw [taken]

private theorem start_after (lifo : LastInFirstOut held turns) :
    (s.after turns).account.start = s.account.start := by
  induction turns generalizing s held with
  | nil => rfl
  | cons head rest ih => exact (ih lifo.2).trans (start_take lifo.1)

/-- The idle interval is open exactly while a guard is held. The idle time is the time with a guard and
the execution time the time without one, which alone counts for the duration limit. -/
theorem idle_iff_guarded (s : SharedAccount) (free : s.guards = []) {begun now : Nat}
    {turns : List (Nat × AccountTurn)} (order : Ordered begun turns now)
    (lifo : LastInFirstOut 0 turns) :
    let left := (s.take begun .begin).2.after turns
    left.guards.length = guardsHeld 0 turns ∧
      (left.account.idleStart.isSome = true ↔ left.guards ≠ []) ∧
      left.account.idleDuration now = guardedTime 0 begun turns now ∧
      left.account.executionDuration now = unguardedTime 0 begun turns now ∧
      ∀ n, (left.take now (.onStep n)).1 = .checked (some .durationLimit) ↔
        left.account.cancelled = some .durationLimit ∨
          left.account.cancelled = none ∧
            s.account.budget.maxExecution ≤ unguardedTime 0 begun turns now := by
  intro left
  have begins : (s.take begun .begin).2.Nests 0 := ⟨free, rfl⟩
  have inStep : (s.take begun .begin).2.account.InStep begun := ⟨Nat.le_refl _, Nat.le_refl _⟩
  obtain ⟨nest, idle⟩ := nests_after begins inStep order lifo
  have fresh : (s.take begun .begin).2.account.idleDuration begun = 0 := rfl
  rw [fresh, Nat.zero_add] at idle
  have start : left.account.start = begun := start_after lifo
  have execution : left.account.executionDuration now = unguardedTime 0 begun turns now := by
    have sum := (inStep_after inStep order).idle_add_execution
    have split := guardedTime_add_unguardedTime 0 begun turns now
    rw [idle, Account.totalDuration, start, ← split] at sum
    exact Nat.add_left_cancel sum
  have budget : left.account.budget = s.account.budget := budget_after _ turns
  have held : left.guards.length = guardsHeld 0 turns := by rw [nest.guards, length_nestOf]
  refine ⟨held, ?_, idle, execution, fun n => ?_⟩
  · rw [nest.isOpen, decide_eq_true_iff, ← held, List.length_pos_iff]
  · cases cancelled : left.account.cancelled with
    | some reason => simp [reply_onStep_of_cancelled cancelled]
    | none =>
      rw [reply_onStep_of_active cancelled, AccountTurn.cause?, execution, budget]
      by_cases late : s.account.budget.maxExecution ≤ unguardedTime 0 begun turns now
      · simp [late]
      · simp [late]

/-- Two nested guards that are held across a check and a cancellation, and a third after them. -/
def nestedTurns : List (Nat × AccountTurn) :=
  [(10, .enterIdle), (20, .enterIdle), (25, .onStep 10), (30, .leaveIdle 1),
    (35, .cancel 1 .totalDurationLimit), (50, .leaveIdle 0), (60, .enterIdle), (60, .addSteps 3)]

theorem nestedTurns_measured :
    (new {} 0).guards = [] ∧ Ordered 5 nestedTurns 70 ∧ LastInFirstOut 0 nestedTurns ∧
      guardsHeld 0 nestedTurns = 1 ∧
      (((new {} 0).take 5 .begin).2.after nestedTurns).account.idleDuration 70 = 50 ∧
      (((new {} 0).take 5 .begin).2.after nestedTurns).account.executionDuration 70 = 15 := by
  have order : Ordered 5 nestedTurns 70 := by decide
  have lifo : LastInFirstOut 0 nestedTurns :=
    ⟨trivial, trivial, rfl, rfl, rfl, rfl, trivial, rfl, trivial⟩
  obtain ⟨-, -, idle, execution, -⟩ := idle_iff_guarded (new {} 0) rfl order lifo
  exact ⟨rfl, order, lifo, rfl, idle.trans (by decide), execution.trans (by decide)⟩

end SharedAccount

end GuildSandbox

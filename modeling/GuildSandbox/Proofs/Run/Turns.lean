import GuildSandbox.Run.Account

/-!
Accounts that several threads share.

A thread works on the account under a lock and reads the clock there, so the turns of all threads
come one after the other. A cancellation takes two turns: its thread records it under the lock, lets
go of the lock, and announces it only then. Other threads can have turns in between.
-/

set_option autoImplicit false
set_option relaxedAutoImplicit false

namespace GuildSandbox

/-- What a thread does to a shared account at one reading of the clock. -/
inductive AccountTurn where
  | onStep (n : Nat)
  | addSteps (n : Nat)
  /-- Records a cancellation; if it is the first, the thread is still to announce it. -/
  | cancel (thread : Nat) (reason : CancelReason)
  /-- Announces what the thread has recorded, with which its call returns. -/
  | announce (thread : Nat)
  | begin
  | markIdle
  | markActive
  | enterIdle
  /-- Gives back the guard at a place, counted from the oldest that is held. -/
  | leaveIdle (place : Nat)
  deriving DecidableEq, Repr

inductive TurnReply where
  | done
  /-- The reason to stop, if there is one. -/
  | checked (reason : Option CancelReason)
  /-- Whether a cancellation is the first. -/
  | cancelled (first : Bool)
  deriving DecidableEq, Repr

/-- An account with the guards that are held on it, and the threads that have a cancellation to
announce. -/
structure SharedAccount extends GuardedAccount where
  announcing : List (Nat × CancelReason) := []
  deriving DecidableEq, Repr

namespace SharedAccount

def new (budget : Budget) (begun : Nat) : SharedAccount := { account := .new budget begun }

def take (s : SharedAccount) (now : Nat) : AccountTurn → TurnReply × SharedAccount
  | .onStep n =>
    (.checked (s.account.onStep n now).1, { s with account := (s.account.onStep n now).2 })
  | .addSteps n => (.done, { s with account := s.account.addSteps n })
  | .cancel thread reason =>
    match s.account.record reason with
    | (true, account) =>
      (.cancelled true,
        { s with account := account, announcing := s.announcing ++ [(thread, reason)] })
    | (false, account) => (.cancelled false, { s with account := account })
  | .announce thread =>
    match s.announcing.find? fun p => p.1 = thread with
    | some (_, reason) =>
      (.done, { s with account := s.account.announce reason
                       announcing := s.announcing.filter fun p => p.1 ≠ thread })
    | none => (.done, s)
  | .begin => (.done, { s with account := s.account.begin now })
  | .markIdle => (.done, { s with account := s.account.markIdle now })
  | .markActive => (.done, { s with account := s.account.markActive now })
  | .enterIdle => (.done, { s with toGuardedAccount := s.toGuardedAccount.enter now })
  | .leaveIdle place => (.done, { s with toGuardedAccount := s.toGuardedAccount.leaveAt place now })

def after (s : SharedAccount) (turns : List (Nat × AccountTurn)) : SharedAccount :=
  turns.foldl (fun s turn => (s.take turn.1 turn.2).2) s

theorem after_append (s : SharedAccount) (earlier later : List (Nat × AccountTurn)) :
    s.after (earlier ++ later) = (s.after earlier).after later :=
  List.foldl_append

end SharedAccount

namespace AccountTurn

def keepsTime : AccountTurn → Bool
  | .begin | .markIdle | .markActive | .enterIdle | .leaveIdle _ => true
  | .onStep _ | .addSteps _ | .cancel _ _ | .announce _ => false

end AccountTurn

private theorem GuardedAccount.account_leaveAt (g : GuardedAccount) (place now : Nat) :
    (g.leaveAt place now).account = g.account ∨
      (g.leaveAt place now).account = g.account.markActive now := by
  unfold leaveAt
  split
  next guard _ =>
    simp only [Account.leaveIdle]
    cases guard.owner with
    | true => exact .inr rfl
    | false => exact .inl rfl
  next => exact .inl rfl

namespace SharedAccount

/-- What a turn about clocks and guards can do: the clocks start again, an idle interval is opened
where none is open, the open one is closed, or nothing. -/
theorem take_of_keepsTime (s : SharedAccount) (now : Nat) {turn : AccountTurn}
    (timing : turn.keepsTime = true) : ∃ guards,
    (s.take now turn).2 = { s with guards := guards } ∨
      turn = .begin ∧ (s.take now turn).2 = { s with account := s.account.begin now } ∨
      s.account.idleStart = none ∧
        (s.take now turn).2 =
          { s with account := { s.account with idleStart := some now }, guards := guards } ∨
      ∃ opened, s.account.idleStart = some opened ∧
        (s.take now turn).2 =
          { s with account := { s.account with
                     idleStart := none, idleClosed := s.account.idleClosed + (now - opened) }
                   guards := guards } := by
  cases turn with
  | onStep n | addSteps n | cancel thread reason | announce thread => cases timing
  | begin => exact ⟨s.guards, .inr (.inl ⟨rfl, rfl⟩)⟩
  | markIdle =>
    refine ⟨s.guards, ?_⟩
    simp only [take, Account.markIdle]
    cases opened : s.account.idleStart with
    | some opened => exact .inl rfl
    | none => exact .inr (.inr (.inl ⟨rfl, rfl⟩))
  | enterIdle =>
    refine ⟨(s.toGuardedAccount.enter now).guards, ?_⟩
    simp only [take, GuardedAccount.enter, Account.enterIdle, Account.markIdle]
    cases opened : s.account.idleStart with
    | some opened => exact .inl rfl
    | none => exact .inr (.inr (.inl ⟨rfl, rfl⟩))
  | markActive =>
    refine ⟨s.guards, ?_⟩
    simp only [take, Account.markActive]
    cases found : s.account.idleStart with
    | some opened => exact .inr (.inr (.inr ⟨opened, rfl, rfl⟩))
    | none => exact .inl rfl
  | leaveIdle place =>
    refine ⟨(s.toGuardedAccount.leaveAt place now).guards, ?_⟩
    have left := s.toGuardedAccount.account_leaveAt place now
    simp only [take]
    generalize s.toGuardedAccount.leaveAt place now = g at left ⊢
    obtain ⟨account, guards⟩ := g
    rcases left with rfl | rfl
    · exact .inl rfl
    · simp only [Account.markActive]
      cases found : s.account.idleStart with
      | some opened => exact .inr (.inr (.inr ⟨opened, rfl, rfl⟩))
      | none => exact .inl rfl

end SharedAccount

end GuildSandbox

import GuildSandbox.Time.Calendar

set_option autoImplicit false
set_option relaxedAutoImplicit false

namespace GuildSandbox.Time

structure Instant where
  seconds : Int
  nanos : Nat
  deriving DecidableEq, Repr, Inhabited

namespace Instant

def le (a b : Instant) : Prop := a.seconds < b.seconds ∨ a.seconds = b.seconds ∧ a.nanos ≤ b.nanos

def lt (a b : Instant) : Prop := a.seconds < b.seconds ∨ a.seconds = b.seconds ∧ a.nanos < b.nanos

instance : LE Instant := ⟨le⟩
instance : LT Instant := ⟨lt⟩

instance (a b : Instant) : Decidable (a ≤ b) :=
  inferInstanceAs (Decidable (a.seconds < b.seconds ∨ a.seconds = b.seconds ∧ a.nanos ≤ b.nanos))

instance (a b : Instant) : Decidable (a < b) :=
  inferInstanceAs (Decidable (a.seconds < b.seconds ∨ a.seconds = b.seconds ∧ a.nanos < b.nanos))

def firstSecond : Int := ({ year := -262143, month := 1, day := 1 } : Date).dayNumber * 86400

def lastSecond : Int :=
  ({ year := 262142, month := 12, day := 31 } : Date).dayNumber * 86400 + 86399

def inRange (seconds : Int) : Bool := firstSecond ≤ seconds && seconds ≤ lastSecond

def longestDuration : Nat := 9223372036854775807

def addMillis? (t : Instant) (millis : Nat) : Option Instant :=
  if longestDuration < millis then none
  else
    let nanos := t.nanos + millis % 1000 * 1000000
    let seconds := t.seconds + (millis / 1000 : Nat) + (nanos / 1000000000 : Nat)
    if inRange seconds then some { seconds := seconds, nanos := nanos % 1000000000 } else none

def addNanos (t : Instant) (n : Nat) : Instant :=
  let nanos := t.nanos + n
  { seconds := t.seconds + (nanos / 1000000000 : Nat), nanos := nanos % 1000000000 }

def totalNanos (t : Instant) : Int := t.seconds * 1000000000 + t.nanos

def date (t : Instant) : Date := Date.ofDayNumber (t.seconds.fdiv 86400)

theorem le_refl (a : Instant) : a ≤ a := .inr ⟨rfl, Nat.le_refl _⟩

theorem le_trans {a b c : Instant} (h : a ≤ b) (k : b ≤ c) : a ≤ c := by
  change a.seconds < b.seconds ∨ a.seconds = b.seconds ∧ a.nanos ≤ b.nanos at h
  change b.seconds < c.seconds ∨ b.seconds = c.seconds ∧ b.nanos ≤ c.nanos at k
  change a.seconds < c.seconds ∨ a.seconds = c.seconds ∧ a.nanos ≤ c.nanos
  omega

end Instant

end GuildSandbox.Time

import GuildSandbox.Proofs.Store.Commands
import GuildSandbox.Proofs.Value.Stored

set_option autoImplicit false
set_option relaxedAutoImplicit false

namespace GuildSandbox

open Time (Instant)

/-- What a handle is used for: a request, or the number of keys. -/
inductive StoreUse where
  | request (c : StoreCommand)
  | count

structure StoreVisit where
  handle : StoreHandle
  now : Instant
  use : StoreUse

namespace StoreUse

def action (h : StoreHandle) (now : Instant) : StoreUse → StoreAction Value
  | .request c => c.action h now
  | .count => (fun n => .int (Int64.ofNat n)) <$> h.count.toAction

def InKeyOrder : StoreUse → Prop
  | .request (.set _ value _) => value.InKeyOrder
  | _ => True

end StoreUse

namespace StoreVisit

def run (visit : StoreVisit) (s : Store) : Except StoreError Value × Store :=
  s.run visit.now (visit.use.action visit.handle visit.now)

@[simp] theorem run_request (s : Store) (h : StoreHandle) (now : Instant) (c : StoreCommand) :
    run ⟨h, now, .request c⟩ s = s.run now (c.action h now) :=
  rfl

structure Valid (visit : StoreVisit) : Prop where
  instant : visit.now.Valid
  ordered : visit.use.InKeyOrder

end StoreVisit

namespace Store

def after (s : Store) : List StoreVisit → Store
  | [] => s
  | visit :: earlier => (visit.run (s.after earlier)).2

def records (s : Store) : List StoreVisit → List (StoreVisit × Except StoreError Value)
  | [] => []
  | visit :: earlier => (visit, (visit.run (s.after earlier)).1) :: s.records earlier

end Store

theorem Store.run_count_snd (s : Store) (h : StoreHandle) (now : Instant) :
    (s.run now (StoreUse.count.action h now)).2 = s := by
  rw [StoreUse.action, run_map]
  exact s.run_look_snd h.guild now Keyspace.count

/-- A visit leaves the store as it is, or as one change of the keyspace of its guild leaves it. -/
theorem StoreVisit.run_snd_cases (visit : StoreVisit) (s : Store) :
    (visit.run s).2 = s ∨
      ∃ (α : Type) (counts : α → Bool)
        (operation : Keyspace → Instant → Except StoreError α × Keyspace),
        (visit.run s).2 =
          (s.run visit.now (Store.change visit.handle.guild counts operation)).2 := by
  unfold run
  cases visit.use with
  | request c => exact c.run_snd_cases s visit.handle visit.now
  | count => exact .inl (s.run_count_snd visit.handle visit.now)

theorem StoreVisit.holds_of_ne {s : Store} {guild : String} {space : Keyspace} {visit : StoreVisit}
    (holds : s.Holds guild space) (other : guild ≠ visit.handle.guild) :
    (visit.run s).2.Holds guild space := by
  obtain same | ⟨α, counts, operation, same⟩ := visit.run_snd_cases s
  · rw [same]
    exact holds
  · rw [same]
    exact holds.run_change_of_ne other counts operation

/-- A text that expires, and after it a number in its place that another handle increases. Another guild
has a number of its own under that key. -/
def replacingVisits : List StoreVisit :=
  let h (guild : String) (maxKeys : Nat) : StoreHandle :=
    { guild := guild, limits := .withMaxKeys maxKeys }
  [⟨h "1" 3, ⟨4, 0⟩, .request (.increase "n" 1)⟩,
    ⟨h "1" 2, ⟨3, 0⟩, .request (.delete "other")⟩,
    ⟨h "2" 1, ⟨3, 0⟩, .request (.increase "n" 7)⟩,
    ⟨h "1" 2, ⟨2, 0⟩, .request (.set "n" (.float 0.5) none)⟩,
    ⟨h "1" 1, ⟨0, 0⟩, .request (.set "n" (.str "early") (some 1500))⟩]

theorem valid_of_mem_replacingVisits : ∀ visit ∈ replacingVisits, visit.Valid := by
  simp only [replacingVisits, List.forall_mem_cons]
  exact ⟨⟨by decide, trivial⟩, ⟨by decide, trivial⟩, ⟨by decide, trivial⟩, ⟨by decide, trivial⟩,
    ⟨by decide, trivial⟩, nofun⟩

end GuildSandbox

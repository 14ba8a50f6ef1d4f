import GuildSandbox.Host.Gate
import GuildSandbox.Proofs.Host.Answers

set_option autoImplicit false
set_option relaxedAutoImplicit false

namespace GuildSandbox

variable {w : World} {reason : CancelReason}

namespace DerivedPermissions

def Privileged (p : DerivedPermissions) : Prop :=
  p.guildIsOwner = true ∨ p.guildPermissions.contains .administrator = true

end DerivedPermissions

/-- Permissions grant a requirement, for an interaction in the channel `here`. -/
def Requirement.GrantedBy (here : String) (p : DerivedPermissions) : Requirement → Prop
  | .guild permission => p.Privileged ∨ p.guildPermissions.contains permission = true
  | .channel id permission =>
    p.Privileged ∨ (id = here ∧ p.channelPermissions.contains permission = true) ∨
      (id ≠ here ∧ p.guildPermissions.contains permission = true)
  | .manageRole id =>
    p.Privileged ∨ (p.guildPermissions.contains .manageRoles = true ∧ id ∈ p.lowerRoleIds)

theorem Gate.grants_iff (g : Gate) (p : DerivedPermissions) (r : Requirement) :
    g.grants p r = true ↔ r.GrantedBy g.channelId p := by
  cases r with
  | guild permission =>
    simp [grants, Requirement.GrantedBy, DerivedPermissions.hasGuildPermission,
      DerivedPermissions.isPrivileged, DerivedPermissions.Privileged]
  | channel id permission =>
    by_cases here : id = g.channelId <;>
      simp [grants, Requirement.GrantedBy, DerivedPermissions.hasGuildPermission, here,
        DerivedPermissions.hasChannelPermission, DerivedPermissions.isPrivileged,
        DerivedPermissions.Privileged]
  | manageRole id =>
    simp [grants, Requirement.GrantedBy, DerivedPermissions.canManageRole,
      DerivedPermissions.isPrivileged, DerivedPermissions.Privileged]

instance (here : String) (p : DerivedPermissions) (r : Requirement) :
    Decidable (r.GrantedBy here p) :=
  decidable_of_iff _ (Gate.grants_iff { snapshot := p, guildId := "", channelId := here } p r)

/-- Both the permissions taken at dispatch and the current ones, where the cache can derive them,
grant the requirement. -/
def Gate.Admits (g : Gate) (c : Cache) (r : Requirement) : Prop :=
  r.GrantedBy g.channelId g.snapshot ∧
    ∀ live ∈ c.livePermissions? g.snapshot.userId, r.GrantedBy g.channelId live

instance (g : Gate) (c : Cache) (r : Requirement) : Decidable (g.Admits c r) :=
  inferInstanceAs (Decidable (_ ∧ ∀ live ∈ c.livePermissions? g.snapshot.userId, _))

private theorem Gate.admits_iff (g : Gate) (c : Cache) (r : Requirement) :
    g.Admits c r ↔ g.grants g.snapshot r = true ∧
      ∀ live ∈ c.livePermissions? g.snapshot.userId, g.grants live r = true := by
  simp only [Admits, grants_iff]

theorem Gate.check_of_cancelled (cancelled : w.account.cancelled = some reason) (g : Gate)
    (r : Requirement) : (g.check r).run w =
      (.error (if g.grants g.snapshot r then .cancelled reason else .permissionDenied r.describe),
        w) := by
  rw [check, Host.run_bind, Host.run_ofExcept, demand]
  cases g.grants g.snapshot r with
  | false => rfl
  | true => exact Host.run_bind_of_error (Host.call_of_cancelled cancelled _) _

namespace Gate

variable {g : Gate} {r : Requirement} {nanos : Nat}

theorem check_of_admits (active : w.account.cancelled = none)
    (answers : nanos ∈ Host.answerTime? w.cacheMode) (inTime : w.reachesDeadline nanos = false)
    (admits : g.Admits w.cache r) : ∃ account : Account, account.cancelled = none ∧
      (g.check r).run w = (.ok (), { w with clock := w.clock + nanos, account := account }) := by
  obtain ⟨dispatched, current⟩ := (g.admits_iff w.cache r).1 admits
  obtain ⟨account, still, looked⟩ := Host.lookup_of_answer active answers inTime
    fun c => c.livePermissions? g.snapshot.userId
  refine ⟨account, still, ?_⟩
  simp only [check, demand, dispatched, if_true, Host.run_bind, Host.run_ofExcept, looked]
  cases live : w.cache.livePermissions? g.snapshot.userId with
  | none => rfl
  | some p =>
    simp only [current p live, if_true]
    rfl

/-- A denial by the permissions taken at dispatch comes first, whatever the state of the run. -/
theorem check_of_denied_at_dispatch (denied : ¬ r.GrantedBy g.channelId g.snapshot) (w : World) :
    (g.check r).run w = (.error (.permissionDenied r.describe), w) := by
  have refused : g.grants g.snapshot r = false := by
    rw [← grants_iff] at denied
    exact Bool.eq_false_iff.2 denied
  rw [check, Host.run_bind, Host.run_ofExcept, demand, refused]
  rfl

theorem check_of_denied (active : w.account.cancelled = none)
    (answers : nanos ∈ Host.answerTime? w.cacheMode) (inTime : w.reachesDeadline nanos = false)
    (denied : ¬ g.Admits w.cache r) :
    ((g.check r).run w).1 = .error (.permissionDenied r.describe) := by
  by_cases dispatched : r.GrantedBy g.channelId g.snapshot
  · obtain ⟨account, still, looked⟩ := Host.lookup_of_answer active answers inTime
      fun c => c.livePermissions? g.snapshot.userId
    have granted := (g.grants_iff _ r).2 dispatched
    simp only [check, demand, granted, if_true, Host.run_bind, Host.run_ofExcept, looked]
    cases live : w.cache.livePermissions? g.snapshot.userId with
    | none =>
      refine absurd ⟨dispatched, fun p here => ?_⟩ denied
      rw [live] at here
      cases here
    | some p =>
      have refused : g.grants p r = false := by
        refine Bool.eq_false_iff.2 fun current => denied ⟨dispatched, fun q here => ?_⟩
        obtain rfl : p = q := Option.some.inj (live.symm.trans here)
        exact (g.grants_iff p r).1 current
      simp only [refused]
      rfl
  · rw [check_of_denied_at_dispatch dispatched]

theorem check_of_silence
    (silent : ∀ n ∈ Host.answerTime? w.cacheMode, w.reachesDeadline n = true)
    (g : Gate) (r : Requirement) : ∃ e, ((g.check r).run w).1 = .error e := by
  obtain ⟨e, looked⟩ := Host.lookup_of_silence silent
    fun c => c.livePermissions? g.snapshot.userId
  rw [check, Host.run_bind, Host.run_ofExcept, demand]
  cases g.grants g.snapshot r with
  | false => exact ⟨_, rfl⟩
  | true =>
    refine ⟨e, ?_⟩
    simp only [if_true, Host.run_bind]
    rcases outcome : (Host.call (.immediate
        (Host.lookup fun c => c.livePermissions? g.snapshot.userId))).run w with ⟨result, left⟩
    rw [outcome] at looked
    obtain rfl : result = .error e := looked
    rfl

theorem keeps_check {γ : Type} {observe : World → γ} (ignores : Host.IgnoresTime observe)
    (g : Gate) (r : Requirement) : Host.Keeps observe (g.check r) := by
  have looked := Host.keeps_immediateLookup ignores
    fun c => c.livePermissions? g.snapshot.userId
  unfold check
  refine (Host.keeps_ofExcept _).bind fun _ => looked.bind fun live => ?_
  cases live with
  | none => exact Host.keeps_pure ()
  | some p => exact Host.keeps_ofExcept _

end Gate

end GuildSandbox

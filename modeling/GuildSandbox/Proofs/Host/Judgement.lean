import GuildSandbox.Proofs.Host.Gate

/-!
How judgements of permissions compare.

A user who may do more is never refused what a user with less is granted, and a requirement of two
sets of permissions at once is the requirement of each. The check inherits this: it asks for what the
permissions at dispatch grant and, where they can be derived, the current ones, so that taking
something away from either never opens it.
-/

set_option autoImplicit false
set_option relaxedAutoImplicit false

namespace GuildSandbox

namespace Permissions

variable {p q r : Permissions}

def Has (p : Permissions) (bit : Nat) : Prop := p.bits.toBitVec.getLsbD bit = true

private theorem contains_iff : p.contains q = true ↔ ∀ bit, q.Has bit → p.Has bit := by
  have meets : p.contains q = true ↔ p.bits.toBitVec &&& q.bits.toBitVec = q.bits.toBitVec := by
    rw [contains, beq_iff_eq, ← UInt64.toBitVec_and, UInt64.toBitVec_inj]
  rw [meets]
  constructor
  · intro same bit here
    rw [Has, ← same, BitVec.getLsbD_and, Bool.and_eq_true] at here
    exact here.1
  · intro every
    refine BitVec.eq_of_getLsbD_eq fun bit _ => ?_
    rw [BitVec.getLsbD_and]
    cases here : q.bits.toBitVec.getLsbD bit with
    | false => exact Bool.and_false _
    | true =>
      have there : p.bits.toBitVec.getLsbD bit = true := every bit here
      rw [there, Bool.and_true]

private theorem has_union {bit : Nat} : (p.union q).Has bit ↔ p.Has bit ∨ q.Has bit := by
  rw [Has, union, UInt64.toBitVec_or, BitVec.getLsbD_or, Bool.or_eq_true]
  rfl

private theorem contains_union_iff :
    p.contains (q.union r) = true ↔ p.contains q = true ∧ p.contains r = true := by
  simp only [contains_iff, has_union, or_imp, forall_and]

end Permissions

namespace DerivedPermissions

/-- Everything that one user is or has, the other is or has too. -/
structure AtMost (p q : DerivedPermissions) : Prop where
  owner : p.guildIsOwner = true → q.guildIsOwner = true
  guild : ∀ bit, p.guildPermissions.Has bit → q.guildPermissions.Has bit
  channel : ∀ bit, p.channelPermissions.Has bit → q.channelPermissions.Has bit
  roles : p.lowerRoleIds ⊆ q.lowerRoleIds

namespace AtMost

variable {p q : DerivedPermissions}

private theorem refl (p : DerivedPermissions) :
    p.AtMost p := ⟨id, fun _ => id, fun _ => id, fun _ => id⟩

private theorem guild_contains (atMost : p.AtMost q) {wanted : Permissions}
    (contained : p.guildPermissions.contains wanted = true) :
    q.guildPermissions.contains wanted = true :=
  Permissions.contains_iff.2 fun bit here =>
    atMost.guild bit (Permissions.contains_iff.1 contained bit here)

private theorem channel_contains (atMost : p.AtMost q) {wanted : Permissions}
    (contained : p.channelPermissions.contains wanted = true) :
    q.channelPermissions.contains wanted = true :=
  Permissions.contains_iff.2 fun bit here =>
    atMost.channel bit (Permissions.contains_iff.1 contained bit here)

private theorem privileged (atMost : p.AtMost q) (privileged : p.Privileged) : q.Privileged :=
  privileged.imp atMost.owner atMost.guild_contains

private theorem granted (atMost : p.AtMost q) {here : String} {r : Requirement}
    (granted : r.GrantedBy here p) : r.GrantedBy here q := by
  cases r with
  | guild wanted => exact granted.imp atMost.privileged atMost.guild_contains
  | channel id wanted =>
    exact granted.imp atMost.privileged fun contained => contained.imp
      (And.imp_right atMost.channel_contains) (And.imp_right atMost.guild_contains)
  | manageRole id =>
    exact granted.imp atMost.privileged (And.imp atMost.guild_contains fun lower => atMost.roles lower)

end AtMost

end DerivedPermissions

namespace Requirement

variable {here : String} {p : DerivedPermissions}

private theorem grantedBy_of_privileged (privileged : p.Privileged) (r : Requirement) :
    r.GrantedBy here p := by
  cases r with
  | guild wanted => exact .inl privileged
  | channel id wanted => exact .inl privileged
  | manageRole id => exact .inl privileged

private theorem grantedBy_guild_union (a b : Permissions) :
    (guild (a.union b)).GrantedBy here p ↔ (guild a).GrantedBy here p ∧ (guild b).GrantedBy here p := by
  simp only [GrantedBy, Permissions.contains_union_iff, or_and_left]

private theorem grantedBy_channel_union (id : String) (a b : Permissions) :
    (channel id (a.union b)).GrantedBy here p ↔
      (channel id a).GrantedBy here p ∧ (channel id b).GrantedBy here p := by
  by_cases interaction : id = here
  · simp [GrantedBy, interaction, Permissions.contains_union_iff, or_and_left]
  · simp [GrantedBy, interaction, Permissions.contains_union_iff, or_and_left]

end Requirement

namespace Gate

def Passes (g : Gate) (r : Requirement) (w : World) : Prop := ((g.check r).run w).1 = .ok ()

private theorem passes_iff {g : Gate} {r : Requirement} {w : World} : g.Passes r w ↔
    w.account.cancelled = none ∧
      (∃ nanos ∈ Host.answerTime? w.cacheMode, w.reachesDeadline nanos = false) ∧
      g.Admits w.cache r := by
  constructor
  · intro passes
    rw [Passes] at passes
    have active : w.account.cancelled = none := by
      cases cancelled : w.account.cancelled with
      | none => rfl
      | some reason =>
        rw [check_of_cancelled cancelled] at passes
        cases passes
    by_cases answers : ∃ nanos ∈ Host.answerTime? w.cacheMode, w.reachesDeadline nanos = false
    · refine ⟨active, answers, ?_⟩
      obtain ⟨nanos, answers, inTime⟩ := answers
      refine Decidable.byContradiction fun denied => ?_
      rw [check_of_denied active answers inTime denied] at passes
      cases passes
    · have silent : ∀ n ∈ Host.answerTime? w.cacheMode, w.reachesDeadline n = true :=
        fun n answer => eq_true_of_ne_false fun inTime => answers ⟨n, answer, inTime⟩
      obtain ⟨e, refused⟩ := check_of_silence silent g r
      rw [refused] at passes
      cases passes
  · rintro ⟨active, ⟨nanos, answers, inTime⟩, admits⟩
    obtain ⟨account, -, checked⟩ := check_of_admits active answers inTime admits
    rw [Passes, checked]

/-- A check that passes still passes when the user had no less at dispatch and, where the current
permissions can be derived, has no less now than what could be derived before. -/
private theorem Passes.mono {g : Gate} {r : Requirement} {w : World} (passes : g.Passes r w)
    {s : DerivedPermissions} (user : s.userId = g.snapshot.userId) (dispatched : g.snapshot.AtMost s)
    {c : Cache} (current : ∀ q ∈ c.livePermissions? s.userId,
      ∃ p ∈ w.cache.livePermissions? s.userId, p.AtMost q) :
    { g with snapshot := s }.Passes r { w with cache := c } := by
  obtain ⟨active, answers, atDispatch, now⟩ := passes_iff.1 passes
  refine passes_iff.2 ⟨active, answers, dispatched.granted atDispatch, fun q live => ?_⟩
  obtain ⟨p, before, atMost⟩ := current q live
  rw [user] at before
  exact atMost.granted (now p before)

/-- More permissions are granted no less, a set of permissions is granted with all its parts, and an
owner or administrator is granted everything. A check that passes would pass by the permissions at
dispatch alone, and would have passed before anything was taken away from them or from the current
ones. -/
theorem judgements_monotone (g : Gate) :
    (∀ (p q : DerivedPermissions) (r : Requirement), p.AtMost q →
      g.grants p r = true → g.grants q r = true) ∧
    (∀ (p : DerivedPermissions) (a b : Permissions),
      (g.grants p (.guild (a.union b)) = true ↔
        g.grants p (.guild a) = true ∧ g.grants p (.guild b) = true) ∧
      ∀ id, (g.grants p (.channel id (a.union b)) = true ↔
        g.grants p (.channel id a) = true ∧ g.grants p (.channel id b) = true)) ∧
    (∀ (p : DerivedPermissions) (r : Requirement), p.Privileged → g.grants p r = true) ∧
    ∀ (r : Requirement) (w : World), g.Passes r w →
      (∀ c : Cache, c.livePermissions? g.snapshot.userId = none →
        g.Passes r { w with cache := c }) ∧
      ∀ (s : DerivedPermissions) (c : Cache), s.userId = g.snapshot.userId →
        g.snapshot.AtMost s →
        (∀ before ∈ c.livePermissions? s.userId,
          ∃ now ∈ w.cache.livePermissions? s.userId, now.AtMost before) →
        { g with snapshot := s }.Passes r { w with cache := c } := by
  simp only [grants_iff]
  refine ⟨fun p q r atMost => atMost.granted, fun p a b => ⟨?_, fun id => ?_⟩,
    fun p r privileged => Requirement.grantedBy_of_privileged privileged r, fun r w passes => ?_⟩
  · exact Requirement.grantedBy_guild_union a b
  · exact Requirement.grantedBy_channel_union id a b
  · refine ⟨fun c underivable => ?_, fun s c user dispatched current => ?_⟩
    · refine passes.mono rfl (.refl _) fun q live => ?_
      rw [underivable] at live
      cases live
    · exact passes.mono user dispatched current

/-- A moderator who may kick members, in the channel 2 of guild 42. -/
def moderatorGate : Gate where
  snapshot := { userId := "7", guildPermissions := .kickMembers }
  guildId := "42"
  channelId := "2"

def formerModerator : DerivedPermissions :=
  { moderatorGate.snapshot with guildPermissions := .union .kickMembers .banMembers }

/-- A run of the moderator in which the current permissions are those at dispatch. -/
def moderatedWorld : World where
  epoch := ⟨1800000000, 0⟩
  account := .new {} 0
  cache := { permissions := [("7", moderatorGate.snapshot)] }

theorem moderatedWorld_passes :
    let owner : DerivedPermissions := { userId := "8", guildIsOwner := true }
    let before : Cache := { permissions := [("7", formerModerator)] }
    moderatorGate.grants formerModerator (.guild .kickMembers) = true ∧
      moderatorGate.grants owner (.manageRole "9") = true ∧
      moderatorGate.Passes (.guild .kickMembers) { moderatedWorld with cache := {} } ∧
      { moderatorGate with snapshot := formerModerator }.Passes (.guild .kickMembers)
        { moderatedWorld with cache := before } := by
  intro owner before
  have loss : moderatorGate.snapshot.AtMost formerModerator :=
    ⟨id, fun bit kick => Permissions.has_union.2 (.inl kick), fun _ => id, fun _ => id⟩
  obtain ⟨monotone, -, privileged, checked⟩ := judgements_monotone moderatorGate
  have passes : moderatorGate.Passes (.guild .kickMembers) moderatedWorld := rfl
  obtain ⟨alone, earlier⟩ := checked _ _ passes
  refine ⟨monotone _ _ _ loss (by decide), privileged owner _ (.inl rfl), alone {} rfl, ?_⟩
  refine earlier formerModerator before rfl loss fun held derived => ?_
  obtain rfl := Option.some.inj derived
  exact ⟨moderatorGate.snapshot, rfl, loss⟩

end Gate

end GuildSandbox

import GuildSandbox.Capability.Call
import GuildSandbox.Proofs.Host.Actions
import GuildSandbox.Proofs.Tenancy.Agreement

set_option autoImplicit false
set_option relaxedAutoImplicit false

namespace GuildSandbox

/-- The guild that a call to the service names, if it names one. -/
def RestCall.guildId? : RestCall → Option String
  | .kickMember guildId _ _ | .banMember guildId _ _ | .addMemberRole guildId _ _
  | .removeMemberRole guildId _ _ | .editRole guildId _ _ | .deleteRole guildId _ => some guildId
  | _ => none

/-- A guild in two hosts, with the caches of both and the calls on record before the run. -/
structure Tenancy where
  guild : String
  ours : Cache
  theirs : Cache
  past : List RestCall

namespace Tenancy

variable {t : Tenancy} {α β : Type} {w v : World}

/-- The worlds differ at most in what they hold of other guilds, and the run has named no other guild
to the service. -/
structure Relates (t : Tenancy) (w v : World) : Prop where
  cache : w.cache = t.ours
  other : ∃ store, v = { w with cache := t.theirs, store := store } ∧
    w.store.AgreeOn t.guild store
  calls : ∃ made, w.rest.calls = t.past ++ made ∧ ∀ c ∈ made, ∀ id ∈ c.guildId?, id = t.guild

/-- Related worlds give the action the same result, which fulfils a condition, and stay related. -/
def Respects (t : Tenancy) (post : α → Prop) (action : Host α) : Prop :=
  ∀ w v, t.Relates w v → (action.run w).1 = (action.run v).1 ∧
    t.Relates (action.run w).2 (action.run v).2 ∧ ∀ a, (action.run w).1 = .ok a → post a

theorem Relates.time (related : t.Relates w v) (clock : Nat) (account : Account) :
    t.Relates { w with clock := clock, account := account }
      { v with clock := clock, account := account } := by
  obtain ⟨cache, ⟨store, rfl, agree⟩, calls⟩ := related
  exact ⟨cache, ⟨store, rfl, agree⟩, calls⟩

theorem Relates.elapse (related : t.Relates w v) (nanos : Nat) :
    t.Relates (w.elapse nanos) (v.elapse nanos) := by
  obtain ⟨store, rfl, -⟩ := related.other
  unfold World.elapse
  rw [show World.reachesDeadline { w with cache := t.theirs, store := store } nanos =
    w.reachesDeadline nanos from rfl]
  split
  · exact related.time _ _
  · exact related.time _ w.account

private theorem Relates.elapseToDeadline (related : t.Relates w v) (longer : Nat) :
    t.Relates (w.elapseToDeadline longer) (v.elapseToDeadline longer) := by
  obtain ⟨store, rfl, -⟩ := related.other
  exact related.elapse _

private theorem Relates.sameAccount (related : t.Relates w v) : v.account = w.account := by
  obtain ⟨store, rfl, -⟩ := related.other
  rfl

variable {post : α → Prop} {then_ : β → Prop}

theorem respects_ofExcept {result : Except RunError α} (met : ∀ a, result = .ok a → post a) :
    t.Respects post (ofExcept result) := by
  intro w v related
  rw [Host.run_ofExcept, Host.run_ofExcept]
  exact ⟨rfl, related, met⟩

theorem respects_pure {a : α} (met : post a) : t.Respects post (pure a) := by
  intro w v related
  refine ⟨rfl, related, ?_⟩
  rintro b ⟨⟩
  exact met

private theorem respects_throw (e : RunError) : t.Respects post (throw e) := by
  intro w v related
  refine ⟨rfl, related, ?_⟩
  rintro b ⟨⟩

theorem Respects.bind {action : Host α} {next : α → Host β} (first : t.Respects post action)
    (rest : ∀ a, post a → t.Respects then_ (next a)) : t.Respects then_ (action >>= next) := by
  intro w v related
  obtain ⟨same, related, met⟩ := first w v related
  rw [Host.run_bind, Host.run_bind]
  rcases here : action.run w with ⟨result, w'⟩
  rcases there : action.run v with ⟨_, v'⟩
  rw [here, there] at same related
  rw [here] at met
  cases same
  cases result with
  | error e => exact ⟨rfl, related, fun a => nofun⟩
  | ok a => exact rest a (met a rfl) w' v' related

theorem respects_read {next : World → Host β}
    (rest : ∀ w v, t.Relates w v → ((next w).run w).1 = ((next v).run v).1 ∧
      t.Relates ((next w).run w).2 ((next v).run v).2 ∧ ∀ b, ((next w).run w).1 = .ok b → then_ b) :
    t.Respects then_ (getThe World >>= next) := by
  intro w v related
  rw [Host.run_bind, Host.run_bind, Host.run_getThe, Host.run_getThe]
  exact rest w v related

theorem respects_modify {f : World → World} (kept : ∀ w v, t.Relates w v → t.Relates (f w) (f v)) :
    t.Respects (fun _ => True) (modify f : Host PUnit) :=
  fun w v related => ⟨rfl, kept w v related, fun _ _ => trivial⟩

private theorem Respects.settle {c : HostCall α} (effect : t.Respects post c.effect)
    (wait : ∀ w v, t.Relates w v → c.wait w = c.wait v) (related : t.Relates w v) :
    (c.settle.run w).1 = (c.settle.run v).1 ∧ t.Relates (c.settle.run w).2 (c.settle.run v).2 ∧
      ∀ a, (c.settle.run w).1 = .finished (.ok a) → post a := by
  have deadline : v.reachesDeadline = w.reachesDeadline := by
    obtain ⟨store, rfl, -⟩ := related.other
    rfl
  have stops := related.elapseToDeadline 0
  rw [Host.run_settle, Host.run_settle, ← wait w v related, deadline]
  split
  · refine ⟨?_, stops, fun a => nofun⟩
    rw [stops.sameAccount]
  · obtain ⟨same, related, met⟩ := effect _ _ (related.elapse (c.wait w))
    exact ⟨congrArg Settled.finished same, related, fun a ok => met a (Settled.finished.inj ok)⟩

private theorem Relates.idled (related : t.Relates w v) : t.Relates w.idled v.idled := by
  obtain ⟨store, rfl, -⟩ := related.other
  exact related.time w.clock _

private theorem Relates.resumed {left leftThere : World} (related : t.Relates w v)
    (after : t.Relates left leftThere) : t.Relates (w.resumed left) (v.resumed leftThere) := by
  obtain ⟨store, rfl, -⟩ := related.other
  obtain ⟨other, rfl, -⟩ := after.other
  exact after.time left.clock _

theorem Respects.call {c : HostCall α} (effect : t.Respects post c.effect)
    (wait : ∀ w v, t.Relates w v → c.wait w = c.wait v) : t.Respects post (Host.call c) := by
  intro w v related
  rw [Host.run_call, Host.run_call, related.sameAccount]
  cases w.account.cancelled with
  | some reason => exact ⟨rfl, related, fun a => nofun⟩
  | none =>
    obtain ⟨same, after, met⟩ := effect.settle wait related.idled
    rcases here : c.settle.run w.idled with ⟨settled, left⟩
    rcases there : c.settle.run v.idled with ⟨_, leftThere⟩
    rw [here, there] at same after
    rw [here] at met
    cases same
    have resumed := related.resumed after
    cases settled with
    | dropped reason => exact ⟨rfl, resumed, fun a => nofun⟩
    | finished result =>
      simp only [resumed.sameAccount]
      cases (w.resumed left).account.cancelled with
      | some reason => exact ⟨rfl, resumed, fun a => nofun⟩
      | none =>
        refine ⟨rfl, resumed, fun a ok => met a ?_⟩
        exact congrArg Settled.finished ok

private theorem respects_contact (mode : Mode) (failure : List String → RunError) :
    t.Respects (fun _ => True) (Host.contact mode failure) := by
  cases mode with
  | pass => exact respects_pure trivial
  | fail messages => exact respects_throw _
  | cancel reason =>
    refine respects_modify fun w v related => ?_
    obtain ⟨store, rfl, -⟩ := related.other
    exact related.time w.clock _
  | block nanos =>
    intro w v related
    have outstays : v.outstays nanos = w.outstays nanos := by
      obtain ⟨store, rfl, -⟩ := related.other
      simp only [World.outstays]
    rw [Host.contact, Host.run_block, Host.run_block, outstays]
    split
    · exact ⟨rfl, related.elapseToDeadline World.cancelGrace, fun a => nofun⟩
    · exact ⟨rfl, related.elapse nanos, fun _ _ => trivial⟩

private theorem respects_lookup {query : Cache → α} (same : query t.ours = query t.theirs)
    (met : post (query t.ours)) : t.Respects post (Host.lookup query) := by
  refine respects_read fun w v related => ?_
  have mode : v.cacheMode = w.cacheMode := by
    obtain ⟨store, rfl, -⟩ := related.other
    rfl
  rw [mode]
  refine (respects_contact _ _).bind (fun _ _ => respects_read fun w v related => ?_) w v related
  have ours := related.cache
  obtain ⟨store, rfl, -⟩ := related.other
  refine ⟨?_, related, ?_⟩
  · exact congrArg Except.ok ((congrArg query ours).trans same)
  · rintro a ⟨⟩
    rw [ours]
    exact met

theorem respects_lookupCall {query : Cache → α} (same : query t.ours = query t.theirs)
    (met : post (query t.ours)) : t.Respects post (Host.lookupCall query) := by
  have effect : t.Respects post (Host.lookup query) := respects_lookup same met
  exact Respects.call (c := .immediate (Host.lookup query)) effect fun _ _ _ => rfl

private theorem respects_onStore {action : StoreAction α}
    (confined : ∀ now, Store.Confined t.guild now action)
    (met : ∀ now (s : Store) a, (s.run now action).1 = .ok a → post a) :
    t.Respects post (Host.onStore action) := by
  intro w v related
  have mode : v.storeMode = w.storeMode := by
    obtain ⟨store, rfl, -⟩ := related.other
    rfl
  have contacted : t.Respects (fun _ => True) (Host.contactStore w.storeMode) :=
    respects_contact _ _
  obtain ⟨same, related, -⟩ := contacted w v related
  rw [Host.run_onStore, Host.run_onStore, mode]
  rcases here : (Host.contactStore w.storeMode).run w with ⟨result, left⟩
  rcases there : (Host.contactStore w.storeMode).run v with ⟨_, leftThere⟩
  rw [here, there] at same related
  cases same
  cases result with
  | error e => exact ⟨rfl, related, fun a => nofun⟩
  | ok _ =>
    obtain ⟨store, rfl, agree⟩ := related.other
    obtain ⟨same, agree⟩ := confined left.now _ _ agree
    refine ⟨congrArg (Except.mapError RunError.store) same,
      ⟨related.cache, ⟨_, rfl, agree⟩, related.calls⟩, fun a ok => met left.now left.store a ?_⟩
    cases answered : (left.store.run left.now action).1 with
    | error e =>
      simp only [answered] at ok
      cases ok
    | ok b =>
      simp only [answered] at ok
      cases ok
      rfl

theorem respects_request {r : World → StoreRequest α}
    (same : ∀ w v, t.Relates w v → r w = r v)
    (confined : ∀ w now, StoreHandle.ConfinedRequest t.guild now (r w))
    (met : ∀ w now (s : Store) action a, r w = .ok action →
      (s.run now action).1 = .ok a → post a) :
    t.Respects post (Host.request r) := by
  refine Respects.call (c := .immediate _) ?_ fun _ _ _ => rfl
  refine respects_read fun w v related => ?_
  rw [← same w v related]
  cases made : r w with
  | error e => exact ⟨rfl, related, fun a => nofun⟩
  | ok action =>
    refine respects_onStore (fun now => confined w now action made) ?_ w v related
    exact fun now s a => met w now s action a made

theorem respects_record {c : RestCall} (own : ∀ id ∈ c.guildId?, id = t.guild) :
    t.Respects (fun _ => True) (Host.record c) := by
  intro w v related
  obtain ⟨made, recorded, owned⟩ := related.calls
  obtain ⟨store, rfl, agree⟩ := related.other
  rw [Host.run_record, Host.run_record]
  refine ⟨rfl, ⟨related.cache, ⟨store, rfl, agree⟩, made ++ [c], ?_, ?_⟩, fun _ _ => trivial⟩
  · simp only [recorded, List.append_assoc]
  · intro c' member
    rcases List.mem_append.1 member with before | here
    · exact owned c' before
    · obtain rfl := List.mem_singleton.1 here
      exact own

theorem respects_record_of_none {c : RestCall} (unnamed : c.guildId? = none) :
    t.Respects (fun _ => True) (Host.record c) := by
  refine respects_record fun id named => ?_
  rw [unnamed] at named
  cases named

theorem respects_makeMessage (data : ResponseData) :
    t.Respects (fun _ => True) (Host.makeMessage data) := by
  intro w v related
  obtain ⟨store, rfl, agree⟩ := related.other
  exact ⟨rfl, ⟨related.cache, ⟨store, rfl, agree⟩, related.calls⟩, fun _ _ => trivial⟩

private theorem delay_eq (related : t.Relates w v) : w.rest.delay = v.rest.delay := by
  obtain ⟨store, rfl, -⟩ := related.other
  rfl

theorem respects_service {effect : Host α} (respected : t.Respects post effect) :
    t.Respects post (Host.call (.service effect)) :=
  Respects.call (c := .service effect) respected fun _ _ related => delay_eq related

end Tenancy

end GuildSandbox

import TurnRelay.Proofs.Message.Bare
import TurnRelay.Proofs.Site.Refusal
import TurnRelay.Proofs.Site.Suspension

namespace TurnRelay

theorem UInt32.toNat_min (a b : UInt32) : (min a b).toNat = min a.toNat b.toNat := by
  change (if a ≤ b then a else b).toNat = _
  split
  · next h => rw [Nat.min_eq_left (UInt32.le_iff_toNat_le.1 h)]
  · next h => rw [Nat.min_eq_right (Nat.le_of_not_le (mt UInt32.le_iff_toNat_le.2 h))]

theorem UInt32.toNat_max (a b : UInt32) : (max a b).toNat = max a.toNat b.toNat := by
  change (if a ≤ b then b else a).toNat = _
  split
  · next h => rw [Nat.max_eq_right (UInt32.le_iff_toNat_le.1 h)]
  · next h => rw [Nat.max_eq_left (Nat.le_of_not_le (mt UInt32.le_iff_toNat_le.2 h))]

theorem Config.grantedLifetime_ne_zero {config : Config} (h : config.hasZeroLifetime = false)
    (requested : Option UInt32) : config.grantedLifetime requested ≠ 0 := by
  simp only [hasZeroLifetime, Bool.or_eq_false_iff, decide_eq_false_iff_not, ← UInt32.toNat_inj,
    UInt32.toNat_zero] at h
  obtain ⟨⟨⟨hdefault, hmax⟩, -⟩, -⟩ := h
  rw [Ne, ← UInt32.toNat_inj, UInt32.toNat_zero]
  cases requested with
  | none => exact hdefault
  | some seconds =>
    rw [grantedLifetime, UInt32.toNat_min, UInt32.toNat_max]
    omega

theorem Config.grantedLifetime_pos {config : Config} (h : config.hasZeroLifetime = false)
    (requested : Option UInt32) : 0 < milliseconds (config.grantedLifetime requested) :=
  Nat.pos_of_ne_zero (mt milliseconds_eq_zero_iff.1 (grantedLifetime_ne_zero h requested))

structure Config.Usable (config : Config) : Prop where
  range : config.portRange.isEmpty = false
  lifetimes : config.hasZeroLifetime = false
  ordered : config.defaultLifetime ≤ config.maxLifetime

theorem Config.usable_of_validate {config : Config} {externals : List TransportAddress}
    (h : config.validate = .ok externals) : config.Usable := by
  simp only [validate, bind, Except.bind, pure, Except.pure, throw, throwThe, MonadExceptOf.throw] at h
  split at h
  · cases h
  split at h
  · cases h
  split at h
  · cases h
  split at h
  · cases h
  next hrange =>
    split at h
    · cases h
    next hlifetimes =>
      split at h
      · cases h
      next hordered =>
        refine ⟨by simpa using hrange, by simpa using hlifetimes, ?_⟩
        rw [UInt32.le_iff_toNat_le]
        exact Nat.le_of_not_lt (mt UInt32.lt_iff_toNat_lt.2 hordered)

theorem Config.grantedLifetime_le_max {config : Config} (h : config.Usable) (requested : Option UInt32) :
    config.grantedLifetime requested ≤ config.maxLifetime := by
  cases requested with
  | none => exact h.ordered
  | some seconds =>
    rw [UInt32.le_iff_toNat_le, grantedLifetime, UInt32.toNat_min]
    exact Nat.min_le_right _ _

theorem Command.Requested.lifetime?_eq_zero {config : Config} {relayIp : IpAddress} {m : Message}
    {procedure : Procedure} (h : Requested config relayIp m procedure (.refresh 0))
    (hconfig : config.hasZeroLifetime = false) : procedure = .refresh ∧ m.lifetime? = some 0 := by
  obtain ⟨hprocedure, hseconds⟩ := h.eq_refresh
  refine ⟨hprocedure, Decidable.byContradiction fun hasked => ?_⟩
  rw [if_neg hasked] at hseconds
  exact Config.grantedLifetime_ne_zero hconfig _ hseconds.symm

@[simp] theorem IpAddress.bare_withPort (ip : IpAddress) (port : UInt16) :
    (ip.withPort port).bare = ip.withPort port := by
  cases ip <;> rfl

namespace Site

variable {random : Randomness} {s : Site} {lookup : Lookup} {password : Option String} {now : Nat}
  {port : UInt16}

/-- The request is authenticated and well formed, and its client has no allocation. -/
structure Eligible (s : Site) (lookup : Lookup) (password : Option String) (now : Nat) : Prop where
  genuine : lookup.Genuine s.endpoint.config.realm
  procedure_eq : lookup.procedure = .allocate
  confirmed : ∃ credential,
    Credential.confirm s.endpoint.config.realm lookup.user lookup.raw password = .ok credential
  transport : lookup.request.requestedTransport? = some Command.udpProtocol
  family : lookup.request.requestedFamily?.all (· = s.endpoint.external.ip.family) = true
  absent : s.endpoint.find? lookup.source now = none

/-- The port is free once the expired allocations of the endpoint are gone. -/
def Vacant (s : Site) (now : Nat) (port : UInt16) : Prop :=
  s.pool.range.contains port = true ∧ port ∉ (s.reaped now).pool.taken

def requested (s : Site) (lookup : Lookup) (now : Nat) (port : UInt16) : Allocation where
  tuple := s.endpoint.tuple lookup.source
  username := lookup.user
  relay := s.endpoint.external.ip.withPort port
  created := now
  ends := now + milliseconds (s.endpoint.config.grantedLifetime lookup.request.lifetime?)
  permissions := .fresh (milliseconds s.endpoint.config.permissionLifetime)
  channels := .fresh (milliseconds s.endpoint.config.channelLifetime)

def confirmation (s : Site) (lookup : Lookup) (port : UInt16) : Message :=
  s.successOf lookup.request (allocationAttributes (s.endpoint.external.ip.withPort port) lookup.source
    (s.endpoint.config.grantedLifetime lookup.request.lifetime?))

/-- The client can be told, whatever the port. -/
def Tellable (s : Site) (lookup : Lookup) : Prop :=
  ∀ port key, (s.confirmation lookup port).wireSize (some key) true ≤ maxMessageSize

theorem tellable_of_software (h : (Utf8.encode s.endpoint.config.software).length ≤ 65424)
    (lookup : Lookup) : s.Tellable lookup := fun _ _ =>
  hasRoom_of_sendable (sendable_allocationAttributes ..) (by simp) h lookup.request

structure Placed (s : Site) (lookup : Lookup) (now : Nat) (port : UInt16) (step : Step Answer) : Prop where
  found : step.site.endpoint.find? lookup.source now = some (s.requested lookup now port)
  told : step.events.getLast? = some (.allocated lookup.source lookup.user port)

structure Granted (s : Site) (lookup : Lookup) (now : Nat) (port : UInt16) (step : Step Answer) : Prop
    extends s.Placed lookup now port step where
  answered : ∃ data reply, step.result = .ok (some (.reply data)) ∧
    lookup.request.Answers .success reply data ∧
    reply.find? .xorRelayedAddress = some (.xorRelayedAddress (s.endpoint.external.ip.withPort port))

/-- The client gets an allocation on a vacant port, or the pool is exhausted and nothing that is live
changes. -/
inductive Attempted (s : Site) (lookup : Lookup) (now : Nat) (step : Step Answer) : Prop
  | placed {port : UInt16} {key : Bytes} : s.Vacant now port → s.Placed lookup now port step →
      Replied lookup.request (s.confirmation lookup port) (some key) step.result →
      Attempted s lookup now step
  | exhausted : (s.reaped now).pool.isExhausted = true → step.result = .error .invalidInput →
      step.site.endpoint.table.view now = s.endpoint.table.view now → Attempted s lookup now step

theorem Placed.granted {step : Step Answer} {key : Bytes} (h : s.Placed lookup now port step)
    (htellable : s.Tellable lookup)
    (hreplied : Replied lookup.request (s.confirmation lookup port) (some key) step.result) :
    s.Granted lookup now port step := by
  obtain ⟨data, hresult, hanswers⟩ := hreplied.sent (htellable port key)
  refine ⟨h, data, _, hresult, hanswers, ?_⟩
  exact congrArg (fun relay => some (AttributeValue.xorRelayedAddress relay)) (IpAddress.bare_withPort ..)

theorem Eligible.ofRequest_eq (h : s.Eligible lookup password now) :
    Command.ofRequest s.endpoint.config s.endpoint.external.ip lookup.request lookup.procedure =
      .ok (.allocate (s.endpoint.config.grantedLifetime lookup.request.lifetime?)) := by
  simp [h.procedure_eq, Command.ofRequest, Command.ofAllocate, h.transport, h.family]

theorem Eligible.resume_eq (h : s.Eligible lookup password now) (random : Randomness) :
    ∃ key, s.resume random lookup password now =
      (Step.map (s.sealed lookup key) (s.allocate random lookup.source lookup.user
        (s.endpoint.config.grantedLifetime lookup.request.lifetime?) now)).settled := by
  obtain ⟨credential, hconfirm⟩ := h.confirmed
  exact ⟨credential.key, resume_of_checked hconfirm h.ofRequest_eq random now⟩

theorem Eligible.get?_reaped (h : s.Eligible lookup password now) :
    (s.reaped now).endpoint.table.allocations.get? (s.endpoint.tuple lookup.source) = none := by
  rw [Site.get?_reaped, Holdings.kept]
  exact congrArg (Option.map _) h.absent

theorem range_reaped (s : Site) (now : Nat) : (s.reaped now).pool.range = s.pool.range :=
  PortPool.range_releaseAll ..

theorem vacant_of_draw {pool : PortPool} {draws : Draws}
    (h : (s.reaped now).pool.draw random s.draws = (some (port, pool), draws)) : s.Vacant now port := by
  obtain ⟨hfree, hcontains, -⟩ := PortPool.draw_eq_some h
  rw [range_reaped] at hcontains
  exact ⟨hcontains, hfree⟩

theorem find?_settled (step : Step Answer) (source : TransportAddress) (now : Nat) :
    step.settled.site.endpoint.find? source now = step.site.endpoint.find? source now := by
  unfold Step.settled
  split <;> rfl

theorem find?_grant (hs : s.Sound) (hlifetime : s.endpoint.config.hasZeroLifetime = false)
    (pool : PortPool) : ((s.reaped now).holdings.grant (s.endpoint.tuple lookup.source) lookup.user port pool
      (milliseconds (s.endpoint.config.grantedLifetime lookup.request.lifetime?)) now).table.find?
        (s.endpoint.tuple lookup.source) now = some (s.requested lookup now port) := by
  -- with a lifetime of zero the allocation would have expired as soon as it was made
  have hpositive := Config.grantedLifetime_pos hlifetime lookup.request.lifetime?
  refine AllocationTable.find?_eq_some_iff.2 ⟨?_, Nat.lt_add_of_pos_right hpositive⟩
  rw [Holdings.get?_grant, if_pos rfl, requested, ← hs.relayIp_eq, ← hs.permission_lifetime,
    ← hs.channel_lifetime]
  rfl

structure Stocked (s : Site) : Prop where
  range : s.pool.range.isEmpty = false
  taken : ∀ port ∈ s.pool.taken, s.pool.range.contains port = true

theorem Stocked.isExhausted_eq_false (h : s.Stocked) (hs : s.Sound) (hvacant : s.Vacant now port) :
    (s.reaped now).pool.isExhausted = false := by
  have hrange := range_reaped s now
  have hnodup := (Holdings.conserves_reap hs.holdings now).sound.nodup
  refine PortPool.isExhausted_eq_false (hrange ▸ h.range) hnodup ?_ (hrange ▸ hvacant.1) hvacant.2
  intro other hother
  rw [hrange]
  exact h.taken other (PortPool.mem_taken_releaseAll.1 hother).1

theorem Eligible.attempted_resume (h : s.Eligible lookup password now) (hs : s.Sound)
    (hlifetime : s.endpoint.config.hasZeroLifetime = false) (random : Randomness) :
    s.Attempted lookup now (s.resume random lookup password now) := by
  obtain ⟨key, hresume⟩ := h.resume_eq random
  have hspec := allocate_spec random s lookup.source lookup.user
    (s.endpoint.config.grantedLifetime lookup.request.lifetime?) now
  rw [hresume]
  generalize s.allocate random lookup.source lookup.user
    (s.endpoint.config.grantedLifetime lookup.request.lifetime?) now = step at hspec
  -- nothing is stored under the client's 5-tuple once the expired allocations are gone
  cases hspec with
  | @created _ port pool draws _ hdraw =>
    have hreplied := replied_sealed (Packet.decode_eq_message_iff.1 h.genuine.decoded)
      (sendable_allocationAttributes (s.endpoint.external.ip.withPort port) lookup.source
        (s.endpoint.config.grantedLifetime lookup.request.lifetime?)) s key
    refine .placed (vacant_of_draw hdraw) ⟨?_, ?_⟩ (?_ : Replied _ _ (some key) _)
    · exact (find?_settled ..).trans (find?_grant hs hlifetime pool)
    · rw [Step.events_settled]
      exact List.getLast?_concat
    · rw [Step.result_settled, Step.map, hs.relayIp_eq]
      exact hreplied
  | extended ha _ => cases h.get?_reaped.symm.trans ha
  | occupied ha _ => cases h.get?_reaped.symm.trans ha
  | exhausted _ hdraw =>
    refine .exhausted (PortPool.isExhausted_of_draw hdraw) (Step.result_settled _) ?_
    rw [Step.table_settled]
    exact (lapses_reaped hs now).view_eq
  | disowned hnot _ => exact absurd rfl (hnot _)

/-- With a port that is free a client that can be told of it gets an allocation on such a port, and without
one the request fails for want of it. -/
structure Allots (s : Site) (lookup : Lookup) (now : Nat) (free : UInt16 → Prop) (step : Step Answer) :
    Prop where
  granted : s.Tellable lookup → (∃ port, free port) → ∃ port, free port ∧ s.Granted lookup now port step
  refused : (∀ port, ¬ free port) → step.result = .error .invalidInput ∧
    step.site.endpoint.table.view now = s.endpoint.table.view now

theorem Attempted.allots {step : Step Answer} (h : s.Attempted lookup now step) (hs : s.Sound)
    (hstocked : s.Stocked) : s.Allots lookup now (s.Vacant now) step := by
  cases h with
  | placed hvacant hplaced hreplied =>
    exact ⟨fun htellable _ => ⟨_, hvacant, hplaced.granted htellable hreplied⟩,
      fun hnone => absurd hvacant (hnone _)⟩
  | exhausted hexhausted hresult hview =>
    refine ⟨?_, fun _ => ⟨hresult, hview⟩⟩
    rintro - ⟨port, hvacant⟩
    cases hexhausted.symm.trans (hstocked.isExhausted_eq_false hs hvacant)

theorem Eligible.opened (h : s.Eligible lookup password now) :
    (s.opened now).Eligible lookup password now where
  genuine := h.genuine
  procedure_eq := h.procedure_eq
  confirmed := h.confirmed
  transport := h.transport
  family := h.family
  absent := by rw [find?_opened, h.absent, Option.map_none]

theorem pool_reaped_opened (s : Site) (now : Nat) : ((s.opened now).reaped now).pool = (s.reaped now).pool := by
  have htwice : ((s.opened now).reaped now).holdings = (s.reaped now).holdings :=
    congrArg Prod.snd (Holdings.reap_reap s.holdings now)
  exact congrArg Holdings.pool htwice

theorem vacant_opened (s : Site) : (s.opened now).Vacant now port ↔ s.Vacant now port := by
  have hrange : (s.opened now).pool.range = s.pool.range := range_reaped ..
  rw [Vacant, Vacant, hrange, pool_reaped_opened]

theorem Attempted.after {step : Step Answer} (h : (s.opened now).Attempted lookup now step) (hs : s.Sound)
    (earlier : List Event) : s.Attempted lookup now (step.after earlier) := by
  cases h with
  | placed hvacant hplaced hreplied =>
    refine .placed ((vacant_opened s).1 hvacant) ⟨hplaced.found, ?_⟩ hreplied
    rw [Step.after, List.getLast?_append, hplaced.told]
    rfl
  | exhausted hexhausted hresult hview =>
    refine .exhausted ?_ hresult (hview.trans (view_opened hs now))
    rw [← pool_reaped_opened s now]
    exact hexhausted

theorem Eligible.process_eq (h : s.Eligible lookup password now) (random : Randomness) :
    s.process random lookup.raw lookup.source password now =
      ((s.opened now).resume random lookup password now).after
        (s.expiries now ++ [.passwordAsked lookup.source lookup.user]) := by
  have hneeds : ¬ lookup.procedure.needsAllocation = true := by
    rw [h.procedure_eq]
    nofun
  rw [process, receive_of_genuine h.genuine, if_neg fun hblocked => hneeds hblocked.1]

theorem Sound.opened (hs : s.Sound) (now : Nat) : (s.opened now).Sound where
  holdings := (Holdings.conserves_reap hs.holdings now).sound
  relayIp_eq := hs.relayIp_eq
  permission_lifetime := hs.permission_lifetime
  channel_lifetime := hs.channel_lifetime
  own ha := by
    obtain ⟨b, hb, -⟩ := Holdings.kept_eq_some_iff.1 ((Site.get?_reaped s now _).symm.trans ha)
    exact hs.own hb

theorem Eligible.attempted_process (h : s.Eligible lookup password now) (hs : s.Sound)
    (hlifetime : s.endpoint.config.hasZeroLifetime = false) (random : Randomness) :
    s.Attempted lookup now (s.process random lookup.raw lookup.source password now) := by
  rw [h.process_eq]
  exact (h.opened.attempted_resume (hs.opened now) hlifetime random).after hs _

end Site

end TurnRelay

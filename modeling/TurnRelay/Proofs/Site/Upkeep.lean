import TurnRelay.Proofs.Site.Granting

/-!
What one call makes of one entry. Only an Allocate or Refresh request of the client, or a shutdown, has to
do with the time at which the entry ends. Everything else is upkeep, after which the entry is the same
allocation with the same end, or is gone because it had ended.
-/

namespace TurnRelay

open Holdings (Left)

variable {now later : Nat} {before after : Option Allocation} {a b : Allocation} {config : Config}

inductive Upkeep (now : Nat) (before : Option Allocation) : Option Allocation → Prop
  | left {after : Option Allocation} : Left now before after → Upkeep now before after
  | permitted {a : Allocation} (peers : List IpAddress) : Left now before (some a) →
      Upkeep now before (some (a.permitEach peers now))
  | bound {a : Allocation} (number : UInt16) (peer : TransportAddress) : before = some a →
      Upkeep now before
        (some ({ a with channels := (a.channels.reap now).store number peer now }.permit peer.ip now))
  | unbound {a : Allocation} : before = some a →
      Upkeep now before (some { a with channels := a.channels.reap now })

/-- All that can become of an entry. -/
inductive Turnover (config : Config) (now : Nat) (before : Option Allocation) :
    Option Allocation → Prop
  | upkeep {after : Option Allocation} : Upkeep now before after → Turnover config now before after
  | granted {b : Allocation} (requested : Option UInt32) :
      b.ends = now + milliseconds (config.grantedLifetime requested) →
      (∀ ip, b.permissions.get? ip = none) → (∀ number, b.channels.get? number = none) →
      Turnover config now before (some b)
  | extended {a : Allocation} (requested : Option UInt32) : Left now before (some a) →
      Turnover config now before
        (some (a.extend (now + milliseconds (config.grantedLifetime requested))))
  | removed : Turnover config now before none

theorem Holdings.Left.eq_or_sweep (h : Left now before (some b)) :
    before = some b ∨ ∃ a, before = some a ∧ now < a.ends ∧ a.sweep now = b :=
  h.imp Eq.symm fun hkept => kept_eq_some_iff.1 hkept.symm

/-! ## The same allocation, with the same end -/

structure Allocation.Persists (a b : Allocation) : Prop where
  tuple_eq : b.tuple = a.tuple
  username_eq : b.username = a.username
  relay_eq : b.relay = a.relay
  created_eq : b.created = a.created
  ends_eq : b.ends = a.ends

theorem Allocation.Persists.refl (a : Allocation) : a.Persists a := ⟨rfl, rfl, rfl, rfl, rfl⟩

theorem Allocation.Persists.trans {c : Allocation} (first : a.Persists b) (second : b.Persists c) :
    a.Persists c where
  tuple_eq := second.tuple_eq.trans first.tuple_eq
  username_eq := second.username_eq.trans first.username_eq
  relay_eq := second.relay_eq.trans first.relay_eq
  created_eq := second.created_eq.trans first.created_eq
  ends_eq := second.ends_eq.trans first.ends_eq

theorem Allocation.persists_permitEach (a : Allocation) (peers : List IpAddress) (now : Nat) :
    a.Persists (a.permitEach peers now) := by
  rw [a.permitEach_eq]
  exact ⟨rfl, rfl, rfl, rfl, rfl⟩

def Allocation.Lingers (a : Allocation) (now : Nat) (entry : Option Allocation) : Prop :=
  (∃ b, entry = some b ∧ a.Persists b) ∨ entry = none ∧ a.ends ≤ now

theorem Holdings.Left.persists (h : Left now (some a) (some b)) : a.Persists b := by
  rcases h.eq_or_sweep with hsame | ⟨c, hc, -, rfl⟩
  · obtain rfl := Option.some.inj hsame
    exact .refl a
  · obtain rfl := Option.some.inj hc
    exact ⟨rfl, rfl, rfl, rfl, rfl⟩

theorem Upkeep.lingers (h : Upkeep now (some a) after) : a.Lingers now after := by
  cases h with
  | left hleft =>
    rcases hleft with rfl | rfl
    · exact .inl ⟨a, rfl, .refl a⟩
    · cases hexpired : a.isExpired now with
      | true =>
        refine .inr ⟨?_, Allocation.isExpired_eq_true_iff.1 hexpired⟩
        simp [Holdings.kept, Option.filter, hexpired]
      | false =>
        refine .inl ⟨a.sweep now, ?_, ⟨rfl, rfl, rfl, rfl, rfl⟩⟩
        simp [Holdings.kept, Option.filter, hexpired]
  | permitted peers hleft => exact .inl ⟨_, rfl, hleft.persists.trans (Allocation.persists_permitEach ..)⟩
  | bound number peer hbefore =>
    obtain rfl := Option.some.inj hbefore
    exact .inl ⟨_, rfl, ⟨rfl, rfl, rfl, rfl, rfl⟩⟩
  | unbound hbefore =>
    obtain rfl := Option.some.inj hbefore
    exact .inl ⟨_, rfl, ⟨rfl, rfl, rfl, rfl, rfl⟩⟩

theorem Upkeep.eq_none (h : Upkeep now none after) : after = none := by
  cases h with
  | left hleft => exact hleft.elim id id
  | permitted peers hleft => rcases hleft.eq_or_sweep with h | ⟨_, h, -⟩ <;> cases h
  | bound number peer hbefore => cases hbefore
  | unbound hbefore => cases hbefore

theorem Upkeep.lingers_of_lingers {entry : Option Allocation} (h : Upkeep now entry after)
    (hentry : a.Lingers now entry) : a.Lingers now after := by
  rcases hentry with ⟨b, rfl, hb⟩ | ⟨rfl, hends⟩
  · rcases h.lingers with ⟨c, hc, hpersists⟩ | ⟨hnone, hends⟩
    · exact .inl ⟨c, hc, hb.trans hpersists⟩
    · exact .inr ⟨hnone, hb.ends_eq ▸ hends⟩
  · exact .inr ⟨h.eq_none, hends⟩

/-! ## No more left than was granted -/

/-- Nothing of the allocation lasts longer than what is granted by `now`. -/
structure Allocation.Within (config : Config) (now : Nat) (a : Allocation) : Prop where
  ends : a.ends ≤ now + milliseconds config.maxLifetime
  permissions : ∀ ip ends, a.permissions.get? ip = some ends →
    ends ≤ now + milliseconds config.permissionLifetime
  bindings : ∀ number binding, a.channels.get? number = some binding →
    binding.ends ≤ now + milliseconds config.channelLifetime

structure Allocation.Granting (config : Config) (a : Allocation) : Prop where
  permission_lifetime : a.permissions.lifetime = milliseconds config.permissionLifetime
  channel_lifetime : a.channels.lifetime = milliseconds config.channelLifetime

namespace Allocation.Within

theorem mono (h : a.Within config now) (hle : now ≤ later) : a.Within config later where
  ends := Nat.le_trans h.ends (Nat.add_le_add_right hle _)
  permissions ip ends hends := Nat.le_trans (h.permissions ip ends hends) (Nat.add_le_add_right hle _)
  bindings number binding hbinding :=
    Nat.le_trans (h.bindings number binding hbinding) (Nat.add_le_add_right hle _)

theorem reapChannels (h : a.Within config now) (now' : Nat) :
    ({ a with channels := a.channels.reap now' } : Allocation).Within config now where
  ends := h.ends
  permissions := h.permissions
  bindings number binding hbinding := by
    change (a.channels.reap now').get? number = some binding at hbinding
    rw [ChannelTable.get?_reap, Option.filter_eq_some_iff] at hbinding
    exact h.bindings number binding hbinding.1

theorem sweep (h : a.Within config now) (now' : Nat) : (a.sweep now').Within config now where
  ends := h.ends
  permissions ip ends hends := by
    change (a.permissions.reap now').get? ip = some ends at hends
    rw [PermissionTable.get?_reap, Option.filter_eq_some_iff] at hends
    exact h.permissions ip ends hends.1
  bindings := (h.reapChannels now').bindings

theorem permitEach (h : a.Within config now) (hgranting : a.Granting config) (peers : List IpAddress) :
    (a.permitEach peers now).Within config now := by
  have hpermissions : ∀ ip ends, (a.permitEach peers now).permissions.get? ip = some ends →
      ends ≤ now + milliseconds config.permissionLifetime := by
    intro ip ends hends
    rw [get?_permitEach, hgranting.permission_lifetime] at hends
    split at hends
    · exact Nat.le_of_eq (Option.some.inj hends).symm
    · exact h.permissions ip ends hends
  rw [permitEach_eq]
  exact ⟨h.ends, hpermissions, h.bindings⟩

theorem storeChannel (h : a.Within config now) (hgranting : a.Granting config) (number : UInt16)
    (peer : TransportAddress) :
    ({ a with channels := (a.channels.reap now).store number peer now } : Allocation).Within config
      now where
  ends := h.ends
  permissions := h.permissions
  bindings other binding hbinding := by
    change ((a.channels.reap now).store number peer now).get? other = some binding at hbinding
    rw [ChannelTable.get?_store] at hbinding
    split at hbinding
    · obtain rfl := Option.some.inj hbinding
      exact Nat.le_of_eq (congrArg (now + ·) hgranting.channel_lifetime)
    · exact (h.reapChannels now).bindings other binding hbinding

end Allocation.Within

theorem Turnover.within (h : Turnover config now before after) (hconfig : config.Usable)
    (hbefore : ∀ a, before = some a → a.Within config now ∧ a.Granting config) (hafter : after = some b) :
    b.Within config now := by
  have hleft : ∀ {a}, Left now before (some a) → a.Within config now ∧ a.Granting config := by
    intro a hleft
    rcases hleft.eq_or_sweep with hsame | ⟨c, hc, -, rfl⟩
    · exact hbefore a hsame
    · obtain ⟨hwithin, hgranting⟩ := hbefore c hc
      exact ⟨hwithin.sweep now, hgranting.1, hgranting.2⟩
  have hgranted (requested : Option UInt32) :
      now + milliseconds (config.grantedLifetime requested) ≤ now + milliseconds config.maxLifetime :=
    Nat.add_le_add_left (Nat.mul_le_mul_right 1000
      (UInt32.le_iff_toNat_le.1 (Config.grantedLifetime_le_max hconfig requested))) now
  cases h with
  | upkeep hupkeep =>
    cases hupkeep with
    | left h =>
      subst hafter
      exact (hleft h).1
    | permitted peers h =>
      obtain rfl := Option.some.inj hafter
      exact (hleft h).1.permitEach (hleft h).2 peers
    | bound number peer h =>
      obtain rfl := Option.some.inj hafter
      obtain ⟨hwithin, hgranting⟩ := hbefore _ h
      exact (hwithin.storeChannel hgranting number peer).permitEach
        ⟨hgranting.permission_lifetime, hgranting.channel_lifetime⟩ [peer.ip]
    | unbound h =>
      obtain rfl := Option.some.inj hafter
      exact (hbefore _ h).1.reapChannels now
  | granted requested hends hpermissions hchannels =>
    obtain rfl := Option.some.inj hafter
    refine ⟨Nat.le_trans (Nat.le_of_eq hends) (hgranted requested), fun ip ends h => ?_, fun number binding h => ?_⟩
    · cases (hpermissions ip).symm.trans h
    · cases (hchannels number).symm.trans h
  | extended requested h =>
    obtain rfl := Option.some.inj hafter
    exact ⟨hgranted requested, (hleft h).1.permissions, (hleft h).1.bindings⟩
  | removed => cases hafter

/-! ## What calls make of entries -/

def Command.isLease : Command → Bool
  | .allocate _ | .refresh _ => true
  | _ => false

/-- The call does not answer an Allocate or Refresh request of the client, and is no shutdown. -/
def Call.Spares (client : TransportAddress) : Call → Prop
  | .resume lookup _ => lookup.source = client →
      lookup.procedure ≠ .allocate ∧ lookup.procedure ≠ .refresh
  | .shutdown => False
  | _ => True

theorem Command.Requested.isLease {relayIp : IpAddress} {m : Message} {procedure : Procedure}
    {command : Command} (h : Requested config relayIp m procedure command)
    (hallocate : procedure ≠ .allocate) (hrefresh : procedure ≠ .refresh) : command.isLease = false := by
  cases h with
  | allocate => exact absurd rfl hallocate
  | refresh => exact absurd rfl hrefresh
  | permit => rfl
  | bindChannel => rfl

namespace Site

variable {random : Randomness} {s : Site} {source client : TransportAddress} {user : String}
  {raw : Bytes} {lookup : Lookup} {password : Option String} {command : Command}

theorem get?_setTable_put (s : Site) (tuple : FiveTuple) (a : Allocation) :
    (s.setTable (s.endpoint.table.put tuple a)).endpoint.table.allocations.get? tuple = some a :=
  AllocationTable.get?_put_self ..

theorem Received.upkeep {step : Step Progress} (h : Received s raw source now step) (tuple : FiveTuple) :
    Upkeep now (s.endpoint.table.allocations.get? tuple)
      (step.site.endpoint.table.allocations.get? tuple) := by
  by_cases htuple : tuple = s.endpoint.tuple source
  · subst htuple
    have hopened := get?_opened s now (s.endpoint.tuple source)
    cases h with
    | answered | dropped | refused | waiting | forwarded => exact .left (.inr hopened)
    | @sent _ peer _ a _ _ _ _ hfind _ =>
      have ha := (AllocationTable.find?_eq_some_iff.1 hfind).1
      change Upkeep now _ (((s.opened now).endpoint.table.put _ _).allocations.get? _)
      rw [AllocationTable.get?_put_self]
      exact .permitted [peer.ip] (.inr (ha.symm.trans hopened))
  · exact .left (.inr (h.others htuple))

theorem Executed.upkeep {step : Step (Except PacketError (List Attribute))}
    (h : Executed random s source user now command step) (hcommand : command.isLease = false)
    (tuple : FiveTuple) :
    Upkeep now (s.endpoint.table.allocations.get? tuple)
      (step.site.endpoint.table.allocations.get? tuple) := by
  by_cases htuple : tuple = s.endpoint.tuple source
  · subst htuple
    cases h with
    | created | extended | occupied | exhausted | renewed | deleted => cases hcommand
    | disowned => exact .left (.inl rfl)
    | permitted _ howned =>
      have ha := (AllocationTable.stored_of_owned howned).1
      rw [get?_setTable_put]
      exact .permitted _ (.inl ha.symm)
    | bound howned _ =>
      have ha := (AllocationTable.stored_of_owned howned).1
      rw [get?_setTable_put]
      exact .bound _ _ ha
    | unbound howned hchannels =>
      have ha := (AllocationTable.stored_of_owned howned).1
      rw [get?_setTable_put]
      rcases hchannels with rfl | rfl
      · exact .left (.inl ha.symm)
      · exact .unbound ha
  · exact .left (h.others htuple)

theorem Executed.turnover {step : Step (Except PacketError (List Attribute))} {relayIp : IpAddress}
    {m : Message} {procedure : Procedure} (h : Executed random s source user now command step)
    (hrequested : Command.Requested config relayIp m procedure command) (tuple : FiveTuple) :
    Turnover config now (s.endpoint.table.allocations.get? tuple)
      (step.site.endpoint.table.allocations.get? tuple) := by
  by_cases hlease : command.isLease = false
  · exact .upkeep (h.upkeep hlease tuple)
  by_cases htuple : tuple = s.endpoint.tuple source
  · subst htuple
    have hreaped := get?_reaped s now (s.endpoint.tuple source)
    cases h with
    | @created _ _ pool _ _ _ =>
      change Turnover config now _ ((Holdings.grant _ _ _ _ pool _ _).table.allocations.get? _)
      rw [Holdings.get?_grant, if_pos rfl]
      cases hrequested with
      | allocate => exact .granted m.lifetime? rfl (fun _ => rfl) fun _ => rfl
    | extended ha _ =>
      rw [get?_setTable_put]
      cases hrequested with
      | allocate => exact .extended m.lifetime? (.inr (ha.symm.trans hreaped))
    | occupied | exhausted => exact .upkeep (.left (.inr hreaped))
    | disowned => exact .upkeep (.left (.inl rfl))
    | renewed hnonzero howned =>
      have ha := (AllocationTable.stored_of_owned howned).1
      rw [get?_setTable_put]
      cases hrequested with
      | refresh =>
        split
        · next hzero => exact absurd (if_pos hzero) hnonzero
        · exact .extended m.lifetime? (.inl ha.symm)
    | deleted howned =>
      have hgone : (s.holdings.remove (s.endpoint.tuple source)).2.table.allocations.get?
          (s.endpoint.tuple source) = none := by
        rw [Holdings.get?_remove, if_pos rfl]
      change Turnover config now _ ((Holdings.remove ..).2.table.allocations.get? _)
      rw [hgone]
      exact .removed
    | permitted | bound | unbound => exact absurd rfl hlease
  · exact .upkeep (.left (h.others htuple))

theorem Delivered.upkeep {port : UInt16} {peer : TransportAddress} {payload : Bytes}
    {step : Step (Option Response)} (h : Delivered random s port peer payload now step)
    (tuple : FiveTuple) :
    Upkeep now (s.endpoint.table.allocations.get? tuple)
      (step.site.endpoint.table.allocations.get? tuple) := by
  cases h with
  | oversize => exact .left (.inl rfl)
  | dropped | delivered => exact .left (.inr (get?_reaped s now tuple))

theorem Served.turnover {call : Call} {step : Step Outcome} (h : Served random s now call step)
    (tuple : FiveTuple) :
    Turnover s.endpoint.config now (s.endpoint.table.allocations.get? tuple)
      (step.site.endpoint.table.allocations.get? tuple) := by
  cases h with
  | received h => exact .upkeep (h.upkeep tuple)
  | resumed h =>
    cases h with
    | refused => exact .upkeep (.left (.inl rfl))
    | executed _ hrequested hexecuted =>
      change Turnover _ now _ ((Step.settled _).site.endpoint.table.allocations.get? _)
      rw [Step.table_settled]
      exact hexecuted.turnover hrequested tuple
  | delivered h => exact .upkeep (h.upkeep tuple)
  | rejected => exact .upkeep (.left (.inl rfl))
  | stopped =>
    have hgone : s.holdings.clear.2.table.allocations.get? tuple = none := by
      rw [Holdings.clear, Holdings.get?_evict]
      cases s.holdings.table.allocations.get? tuple <;> rfl
    change Turnover _ now _ (s.holdings.clear.2.table.allocations.get? _)
    rw [hgone]
    exact .removed

theorem Served.upkeep {call : Call} {step : Step Outcome} (h : Served random s now call step)
    (hcall : call.Spares client) :
    Upkeep now (s.endpoint.table.allocations.get? (s.endpoint.tuple client))
      (step.site.endpoint.table.allocations.get? (s.endpoint.tuple client)) := by
  cases h with
  | received h => exact h.upkeep _
  | @resumed lookup _ _ h =>
    by_cases hsource : lookup.source = client
    · cases h with
      | refused => exact .left (.inl rfl)
      | executed _ hrequested hexecuted =>
        obtain ⟨hallocate, hrefresh⟩ := hcall hsource
        change Upkeep now _ ((Step.settled _).site.endpoint.table.allocations.get? _)
        rw [Step.table_settled]
        exact hexecuted.upkeep (hrequested.isLease hallocate hrefresh) _
    · refine .left (h.others ?_)
      exact fun htuple => hsource (congrArg FiveTuple.client htuple).symm
  | delivered h => exact h.upkeep _
  | rejected => exact .left (.inl rfl)
  | stopped => exact hcall.elim

theorem Sound.granting {tuple : FiveTuple} (hs : s.Sound)
    (ha : s.endpoint.table.allocations.get? tuple = some a) : a.Granting s.endpoint.config where
  permission_lifetime := (hs.holdings.wellFormed.fits ha).permission_lifetime.trans hs.permission_lifetime
  channel_lifetime := (hs.holdings.wellFormed.fits ha).channel_lifetime.trans hs.channel_lifetime

end Site

end TurnRelay

import TurnRelay.Proofs.PortPool
import TurnRelay.Proofs.Table.Stored

/-!
A table and its pool are sound when the two indices of the table agree and every port that the table
owns is taken. Each operation keeps this, and leaves the ports of others alone: a port that is taken
but not owned here stays so.
-/

namespace TurnRelay

def ChannelTable.Paired (table : ChannelTable) : Prop :=
  ∀ (peer : TransportAddress) (number : UInt16),
    table.numbers.get? peer = some number ↔
      ∃ binding, table.bindings.get? number = some binding ∧ binding.peer = peer

namespace ChannelTable

theorem paired_fresh (lifetime : Nat) : (fresh lifetime).Paired := by
  intro peer number
  simp [fresh]

theorem mem_expiredPeers {table : ChannelTable} {peer : TransportAddress} {now : Nat} :
    peer ∈ table.expiredPeers now ↔
      ∃ number binding, table.bindings.get? number = some binding ∧
        binding.isExpired now = true ∧ binding.peer = peer := by
  simp only [expiredPeers, List.mem_map, List.mem_filter, Dictionary.mem_values_iff]
  grind

theorem Paired.reap {table : ChannelTable} (h : table.Paired) (now : Nat) :
    (table.reap now).Paired := by
  intro peer number
  have hnumbers : (table.reap now).numbers.get? peer = some number ↔
      table.numbers.get? peer = some number ∧ peer ∉ table.expiredPeers now := by
    simp [ChannelTable.reap, Dictionary.get?_filter, Option.filter_eq_some_iff]
  have hbindings : ∀ binding, (table.reap now).bindings.get? number = some binding ↔
      table.bindings.get? number = some binding ∧ binding.isExpired now = false := by
    intro binding
    simp [ChannelTable.reap, Dictionary.get?_filter, Option.filter_eq_some_iff]
  rw [hnumbers, mem_expiredPeers]
  constructor
  · rintro ⟨hnumber, hexpired⟩
    obtain ⟨binding, hbinding, hpeer⟩ := (h peer number).1 hnumber
    refine ⟨binding, (hbindings binding).2 ⟨hbinding, ?_⟩, hpeer⟩
    apply Bool.eq_false_iff.2
    exact fun he => hexpired ⟨number, binding, hbinding, he, hpeer⟩
  · rintro ⟨binding, hbinding, hpeer⟩
    obtain ⟨hbinding, hlive⟩ := (hbindings binding).1 hbinding
    have hnumber := (h peer number).2 ⟨binding, hbinding, hpeer⟩
    refine ⟨hnumber, ?_⟩
    rintro ⟨other, expired, hother, he, hsame⟩
    -- the expired binding would have to be the live one, since the peer has one number only
    have hothers := (h peer other).2 ⟨expired, hother, hsame⟩
    obtain rfl : number = other := Option.some.inj (hnumber.symm.trans hothers)
    obtain rfl : binding = expired := Option.some.inj (hbinding.symm.trans hother)
    rw [hlive] at he
    cases he

theorem Paired.store {table : ChannelTable} (h : table.Paired) {number : UInt16}
    {peer : TransportAddress} (now : Nat) (hadmits : table.admits number peer = true) :
    (table.store number peer now).Paired := by
  simp only [admits, Bool.and_eq_true, Option.all_eq_true, decide_eq_true_eq] at hadmits
  intro other third
  simp only [ChannelTable.store, Dictionary.get?_insert]
  by_cases hpeer : other = peer <;> by_cases hnumber : third = number
  · simp [hpeer, hnumber]
  · subst hpeer
    simp only [if_true, if_neg hnumber, Option.some.injEq]
    constructor
    · exact fun he => absurd he.symm hnumber
    · exact fun hb => absurd (hadmits.2 third ((h other third).2 hb)) hnumber
  · subst hnumber
    simp only [if_true, if_neg hpeer, Option.some.injEq, exists_eq_left']
    constructor
    · intro hn
      obtain ⟨binding, hbinding, rfl⟩ := (h other third).1 hn
      exact (hadmits.1 binding hbinding).symm
    · exact fun he => absurd he.symm hpeer
  · simp only [if_neg hpeer, if_neg hnumber]
    exact h other third

theorem Paired.bind {table : ChannelTable} (h : table.Paired) (number : UInt16)
    (peer : TransportAddress) (now : Nat) : (table.bind number peer now).2.Paired := by
  rcases bind_cases table number peer now with hb | hb | ⟨hadmits, hb⟩
  · rw [hb]; exact h
  · rw [hb]; exact h.reap now
  · rw [hb]; exact (h.reap now).store now hadmits

@[simp] theorem lifetime_bind (table : ChannelTable) (number : UInt16) (peer : TransportAddress)
    (now : Nat) : (table.bind number peer now).2.lifetime = table.lifetime := by
  rcases bind_cases table number peer now with hb | hb | ⟨-, hb⟩ <;> rw [hb] <;> rfl

end ChannelTable

namespace AllocationTable

structure Fits (table : AllocationTable) (tuple : FiveTuple) (a : Allocation) : Prop where
  tuple_eq : a.tuple = tuple
  relay_eq : a.relay = table.relayIp.withPort a.relay.port
  permission_lifetime : a.permissions.lifetime = table.permissionLifetime
  channel_lifetime : a.channels.lifetime = table.channelLifetime
  paired : a.channels.Paired

structure WellFormed (table : AllocationTable) : Prop where
  fits : ∀ {tuple a}, table.allocations.get? tuple = some a → table.Fits tuple a
  owner_iff : ∀ {port tuple}, table.owners.get? port = some tuple ↔
    ∃ a, table.allocations.get? tuple = some a ∧ a.relay.port = port

variable {table : AllocationTable} {tuple : FiveTuple} {a b : Allocation}

theorem wellFormed_fresh (relayIp : IpAddress) (permissionLifetime channelLifetime : Nat) :
    (fresh relayIp permissionLifetime channelLifetime).WellFormed where
  fits h := by simp [fresh] at h
  owner_iff := by simp [fresh]

theorem Fits.sweep (h : table.Fits tuple a) (now : Nat) : table.Fits tuple (a.sweep now) :=
  ⟨h.tuple_eq, h.relay_eq, h.permission_lifetime, h.channel_lifetime, h.paired.reap now⟩

theorem Fits.extend (h : table.Fits tuple a) (ends : Nat) : table.Fits tuple (a.extend ends) :=
  ⟨h.tuple_eq, h.relay_eq, h.permission_lifetime, h.channel_lifetime, h.paired⟩

theorem Fits.permit (h : table.Fits tuple a) (peer : IpAddress) (now : Nat) :
    table.Fits tuple (a.permit peer now) :=
  ⟨h.tuple_eq, h.relay_eq, h.permission_lifetime, h.channel_lifetime, h.paired⟩

theorem Fits.permitEach (h : table.Fits tuple a) (peers : List IpAddress) (now : Nat) :
    table.Fits tuple (a.permitEach peers now) := by
  induction peers generalizing a with
  | nil => exact h
  | cons peer peers ih => exact ih (h.permit peer now)

theorem Fits.reapChannels (h : table.Fits tuple a) (now : Nat) :
    table.Fits tuple { a with channels := a.channels.reap now } :=
  ⟨h.tuple_eq, h.relay_eq, h.permission_lifetime, h.channel_lifetime, h.paired.reap now⟩

theorem Fits.storeChannel (h : table.Fits tuple a) {number : UInt16} {peer : TransportAddress} {now : Nat}
    (hadmits : (a.channels.reap now).admits number peer = true) :
    table.Fits tuple { a with channels := (a.channels.reap now).store number peer now } :=
  ⟨h.tuple_eq, h.relay_eq, h.permission_lifetime, h.channel_lifetime,
    (h.paired.reap now).store now hadmits⟩

theorem WellFormed.owner (h : table.WellFormed) (ha : table.allocations.get? tuple = some a) :
    table.owners.get? a.relay.port = some tuple :=
  h.owner_iff.2 ⟨a, ha, rfl⟩

theorem WellFormed.ports_iff (h : table.WellFormed) {port : UInt16} :
    port ∈ table.ports ↔ ∃ tuple a, table.allocations.get? tuple = some a ∧ a.relay.port = port := by
  simp only [ports, Dictionary.mem_keys_iff, h.owner_iff]

theorem WellFormed.tuple_unique (h : table.WellFormed) {other : FiveTuple}
    (ha : table.allocations.get? tuple = some a) (hb : table.allocations.get? other = some b)
    (hport : a.relay.port = b.relay.port) : tuple = other :=
  Option.some.inj ((h.owner ha).symm.trans (hport ▸ h.owner hb))

theorem WellFormed.findByPort?_eq_some_iff (h : table.WellFormed) {port : UInt16} {now : Nat} :
    table.findByPort? port now = some a ↔ table.find? a.tuple now = some a ∧ a.relay.port = port := by
  simp only [findByPort?, Option.bind_eq_bind, Option.bind_eq_some_iff]
  constructor
  · rintro ⟨tuple, howner, hfind⟩
    have ha := (find?_eq_some_iff.1 hfind).1
    obtain ⟨b, hb, rfl⟩ := h.owner_iff.1 howner
    obtain rfl : a = b := Option.some.inj (ha.symm.trans hb)
    rw [(h.fits ha).tuple_eq]
    exact ⟨hfind, rfl⟩
  · rintro ⟨hfind, rfl⟩
    exact ⟨a.tuple, h.owner (find?_eq_some_iff.1 hfind).1, hfind⟩

end AllocationTable

namespace Holdings

structure Sound (h : Holdings) : Prop where
  wellFormed : h.table.WellFormed
  taken : ∀ port ∈ h.table.ports, port ∈ h.pool.taken
  nodup : h.pool.taken.Nodup

def Foreign (h : Holdings) (port : UInt16) : Prop := port ∈ h.pool.taken ∧ port ∉ h.table.ports

/-- `after` is sound, and differs from `before` in nothing that is of concern to others. -/
structure Conserves (before after : Holdings) : Prop where
  sound : after.Sound
  foreign_iff : ∀ port, after.Foreign port ↔ before.Foreign port
  in_range : ∀ port ∈ after.pool.taken,
    port ∈ before.pool.taken ∨ before.pool.range.contains port = true
  range_eq : after.pool.range = before.pool.range
  relayIp_eq : after.table.relayIp = before.table.relayIp
  permission_lifetime : after.table.permissionLifetime = before.table.permissionLifetime
  channel_lifetime : after.table.channelLifetime = before.table.channelLifetime

namespace Conserves

theorem refl {h : Holdings} (hs : h.Sound) : h.Conserves h :=
  ⟨hs, fun _ => Iff.rfl, fun _ => .inl, rfl, rfl, rfl, rfl⟩

theorem trans {h h' h'' : Holdings} (first : h.Conserves h') (second : h'.Conserves h'') :
    h.Conserves h'' where
  sound := second.sound
  foreign_iff port := (second.foreign_iff port).trans (first.foreign_iff port)
  in_range port hport := by
    rcases second.in_range port hport with hp | hp
    · exact first.in_range port hp
    · exact .inr (first.range_eq ▸ hp)
  range_eq := second.range_eq.trans first.range_eq
  relayIp_eq := second.relayIp_eq.trans first.relayIp_eq
  permission_lifetime := second.permission_lifetime.trans first.permission_lifetime
  channel_lifetime := second.channel_lifetime.trans first.channel_lifetime

end Conserves

end Holdings

end TurnRelay

import TurnRelay.Proofs.Table.Lease
import TurnRelay.Proofs.Table.View

namespace TurnRelay

namespace Lease

variable {now later : Nat} {lease : Lease} {a : Allocation} {entry : Option Lease}
  {stored : Option Allocation} {table : AllocationTable} {tuple : FiveTuple}

theorem get?_permissions_remains (lease : Lease) (now : Nat) (peer : IpAddress) :
    (lease.remains now).permissions.get? peer = (lease.permissions.get? peer).filter (now < ·) :=
  Dictionary.get?_filter ..

theorem get?_channels_remains (lease : Lease) (now : Nat) (number : UInt16) :
    (lease.remains now).channels.get? number =
      (lease.channels.get? number).filter (!·.isExpired now) := by
  refine (Dictionary.get?_filter ..).trans (congrArg (Option.filter · _) ?_)
  funext binding
  rw [Bool.eq_iff_iff]
  simp [ChannelBinding.isExpired]

theorem remains_remains (lease : Lease) (hle : now ≤ later) :
    (lease.remains now).remains later = lease.remains later := by
  simp only [remains]
  congr 1
  · exact Dictionary.filter_filter_of_imp (fun _ _ h => by simp at h ⊢; omega) _
  · exact Dictionary.filter_filter_of_imp (fun _ _ h => by simp at h ⊢; omega) _

theorem fade_some_of_lt (h : now < lease.ends) : fade now (some lease) = some (lease.remains now) := by
  simp [fade, Option.filter, h]

theorem fade_some_of_le (h : lease.ends ≤ now) : fade now (some lease) = none := by
  simp [fade, Option.filter, Nat.not_lt.2 h]

theorem fade_fade (entry : Option Lease) (hle : now ≤ later) :
    fade later (fade now entry) = fade later entry := by
  cases entry with
  | none => rfl
  | some lease =>
    by_cases hlive : now < lease.ends
    · rw [fade_some_of_lt hlive]
      by_cases hlater : later < lease.ends
      · have hleft : fade later (some (lease.remains now)) = some ((lease.remains now).remains later) :=
          fade_some_of_lt hlater
        rw [hleft, fade_some_of_lt hlater, remains_remains _ hle]
      · have hleft : fade later (some (lease.remains now)) = none :=
          fade_some_of_le (Nat.not_lt.1 hlater)
        rw [hleft, fade_some_of_le (Nat.not_lt.1 hlater)]
    · rw [fade_some_of_le (Nat.not_lt.1 hlive), fade_some_of_le (by omega)]
      rfl

structure Tells (now : Nat) (lease : Lease) (a : Allocation) : Prop where
  user : lease.user = a.username
  created : lease.created = a.created
  ends : lease.ends = a.ends
  permissions : ∀ peer, lease.permissions.get? peer = a.permissions.view now peer
  channels : ∀ number, lease.channels.get? number = a.channels.view now number

namespace Tells

theorem age (h : lease.Tells now a) (hle : now ≤ later) : (lease.remains later).Tells later a where
  user := h.user
  created := h.created
  ends := h.ends
  permissions peer := by
    rw [get?_permissions_remains, h.permissions]
    exact PermissionTable.view_later _ hle peer
  channels number := by
    rw [get?_channels_remains, h.channels]
    exact ChannelTable.view_later _ hle number

theorem extend (h : lease.Tells now a) (ends : Nat) :
    ((lease.extend ends).remains now).Tells now (a.extend ends) :=
  have hsame := h.age (Nat.le_refl now)
  ⟨h.user, h.created, rfl, hsame.permissions, hsame.channels⟩

theorem permit (h : lease.Tells now a) (hfits : table.Fits tuple a) (peer : IpAddress) :
    ((lease.permit table.terms now peer).remains now).Tells now (a.permit peer now) where
  user := h.user
  created := h.created
  ends := h.ends
  permissions other := by
    rw [get?_permissions_remains, Lease.permit, Dictionary.get?_insert, PermissionTable.view,
      Allocation.get?_permit, hfits.permission_lifetime]
    split
    · rfl
    · rw [h.permissions]
      exact PermissionTable.view_later _ (Nat.le_refl now) other
  channels := (h.age (Nat.le_refl now)).channels

theorem contains_permissions (h : lease.Tells now a) (peer : IpAddress) :
    lease.permissions.contains peer = a.isPermitted peer now := by
  rw [Dictionary.contains, h.permissions, PermissionTable.view, Allocation.isPermitted,
    PermissionTable.isPermitted]
  cases a.permissions.get? peer with
  | none => rfl
  | some ends => by_cases hlive : now < ends <;> simp [Option.filter, hlive]

theorem get?_channels (h : lease.Tells now a) (number : UInt16) :
    lease.channels.get? number = (a.channels.reap now).get? number := by
  rw [h.channels, ChannelTable.get?_reap]
  rfl

theorem admits (h : lease.Tells now a) (hpaired : a.channels.Paired) (number : UInt16)
    (peer : TransportAddress) :
    lease.admits number peer = (a.channels.reap now).admits number peer := by
  have hreaped := hpaired.reap now
  have hlease : lease.admits number peer = true ↔ ∀ bound binding,
      lease.channels.get? bound = some binding → (bound = number ↔ binding.peer = peer) := by
    simp only [Lease.admits, List.all_eq_true, decide_eq_true_eq, Dictionary.get?_eq_some_iff]
    exact ⟨fun hall bound binding hmem => hall (bound, binding) hmem,
      fun hall e hmem => hall e.1 e.2 hmem⟩
  rw [Bool.eq_iff_iff, hlease, ChannelTable.admits, Bool.and_eq_true, Option.all_eq_true,
    Option.all_eq_true]
  simp only [decide_eq_true_eq, hreaped peer, h.get?_channels]
  constructor
  · intro hall
    refine ⟨fun binding hbinding => (hall number binding hbinding).1 rfl, ?_⟩
    rintro bound ⟨binding, hbinding, hpeer⟩
    exact (hall bound binding hbinding).2 hpeer
  · rintro ⟨hnumber, hpeer⟩ bound binding hbinding
    constructor
    · rintro rfl
      exact hnumber binding hbinding
    · exact fun hsame => hpeer bound ⟨binding, hbinding, hsame⟩

theorem bind (h : lease.Tells now a) (hfits : table.Fits tuple a) (number : UInt16)
    (peer : TransportAddress) :
    ((lease.bind table.terms now number peer).remains now).Tells now
      (({ a with channels := (a.channels.reap now).store number peer now } : Allocation).permit
        peer.ip now) where
  user := h.user
  created := h.created
  ends := h.ends
  permissions := (h.permit hfits peer.ip).permissions
  channels other := by
    have hlifetime : (a.channels.reap now).lifetime = table.channelLifetime := hfits.channel_lifetime
    change _ = (((a.channels.reap now).store number peer now).get? other).filter (!·.isExpired now)
    rw [get?_channels_remains, Lease.bind, Dictionary.get?_insert, ChannelTable.get?_store, hlifetime,
      h.get?_channels]
    rfl

theorem reapChannels (h : lease.Tells now a) :
    lease.Tells now { a with channels := a.channels.reap now } :=
  ⟨h.user, h.created, h.ends, h.permissions, fun number => by rw [h.channels, ChannelTable.view_reap]⟩

theorem sweep (h : lease.Tells now a) : lease.Tells now (a.sweep now) := by
  refine ⟨h.user, h.created, h.ends, fun peer => ?_, fun number => ?_⟩
  · rw [h.permissions, Allocation.sweep, PermissionTable.view_reap]
  · rw [h.channels, Allocation.sweep, ChannelTable.view_reap]

end Tells

theorem tells_fresh (table : AllocationTable) (tuple : FiveTuple) (user : String) (relay : TransportAddress)
    (now ends : Nat) :
    ((⟨user, now, ends, ∅, ∅⟩ : Lease).remains now).Tells now
      { tuple := tuple
        username := user
        relay := relay
        created := now
        ends := ends
        permissions := .fresh table.permissionLifetime
        channels := .fresh table.channelLifetime } :=
  ⟨rfl, rfl, rfl, fun _ => rfl, fun _ => rfl⟩

theorem tells_lease (a : Allocation) (now : Nat) : (a.lease.remains now).Tells now a :=
  ⟨rfl, rfl, rfl, get?_permissions_remains a.lease now, get?_channels_remains a.lease now⟩

/-- What is left of the one and what is live of the other are the same. -/
def Shown (now : Nat) (entry : Option Lease) (stored : Option Allocation) : Prop :=
  Option.Rel (Tells now) (fade now entry) (stored.filter (!·.isExpired now))

namespace Shown

theorem of_tells (h : (lease.remains now).Tells now a) : Shown now (some lease) (some a) := by
  have hends : lease.ends = a.ends := h.ends
  by_cases hlive : now < lease.ends
  · have hstored : a.isExpired now = false := by simpa [← hends] using hlive
    rw [Shown, fade_some_of_lt hlive]
    simpa [Option.filter, hstored] using Option.Rel.some h
  · have hstored : a.isExpired now = true := by simpa [← hends] using hlive
    rw [Shown, fade_some_of_le (Nat.not_lt.1 hlive)]
    simp [Option.filter, hstored]

theorem of_rel {live : Option Allocation} (h : Option.Rel (Tells now) entry live) (hle : now ≤ later) :
    Shown later entry live := by
  cases h with
  | none => exact .none
  | some htells => exact of_tells (htells.age hle)

theorem age (h : Shown now entry stored) (hle : now ≤ later) : Shown later entry stored := by
  have hlive : (stored.filter (!·.isExpired now)).filter (!·.isExpired later) =
      stored.filter (!·.isExpired later) :=
    Option.filter_filter_of_imp (fun a ha => by simp at ha ⊢; omega) _
  have hlater := of_rel h hle
  rw [Shown, fade_fade _ hle, hlive] at hlater
  exact hlater

theorem fade (h : Shown now entry stored) : Shown now (Lease.fade now entry) stored := by
  rw [Shown, fade_fade _ (Nat.le_refl now)]
  exact h

theorem sweep {swept : Option Allocation} (h : Shown now entry stored)
    (hswept : swept.filter (!·.isExpired now) =
      (stored.filter (!·.isExpired now)).map (·.sweep now)) : Shown now entry swept := by
  rw [Shown] at h ⊢
  rw [hswept]
  generalize Lease.fade now entry = left, stored.filter (!·.isExpired now) = live at h ⊢
  cases h with
  | none => exact .none
  | some htells => exact .some htells.sweep

end Shown

end Lease

end TurnRelay

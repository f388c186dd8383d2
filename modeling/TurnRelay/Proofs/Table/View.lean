import TurnRelay.Proofs.Table.Sound

namespace TurnRelay

theorem Option.filter_filter_of_imp {α : Type} {keep narrow : α → Bool}
    (h : ∀ x, narrow x = true → keep x = true) (entry : Option α) :
    (entry.filter keep).filter narrow = entry.filter narrow := by
  cases entry with
  | none => rfl
  | some x =>
    have hx := h x
    cases hnarrow : narrow x with
    | true => simp [Option.filter, hx hnarrow]
    | false => by_cases hkeep : keep x = true <;> simp [Option.filter, hkeep, hnarrow]

theorem Option.filter_filter_self {α : Type} (keep : α → Bool) (entry : Option α) :
    (entry.filter keep).filter keep = entry.filter keep :=
  filter_filter_of_imp (fun _ => id) entry

theorem Dictionary.filter_filter_of_imp {κ α : Type} {keep narrow : κ → α → Bool}
    (h : ∀ key x, narrow key x = true → keep key x = true) (d : Dictionary κ α) :
    (d.filter keep).filter narrow = d.filter narrow := by
  apply Dictionary.ext
  simp only [filter, List.filter_filter]
  refine List.filter_congr fun e _ => ?_
  cases hnarrow : narrow e.1 e.2 with
  | true => simp [h e.1 e.2 hnarrow]
  | false => simp

theorem Dictionary.filter_filter_self {κ α : Type} (keep : κ → α → Bool) (d : Dictionary κ α) :
    (d.filter keep).filter keep = d.filter keep :=
  filter_filter_of_imp (fun _ _ => id) d

namespace PermissionTable

def view (table : PermissionTable) (now : Nat) (peer : IpAddress) : Option Nat :=
  (table.get? peer).filter (now < ·)

theorem view_later (table : PermissionTable) {now later : Nat} (hle : now ≤ later) (peer : IpAddress) :
    (table.view now peer).filter (later < ·) = table.view later peer :=
  Option.filter_filter_of_imp (fun _ h => by simp at h ⊢; omega) _

@[simp] theorem view_reap (table : PermissionTable) (now : Nat) :
    (table.reap now).view now = table.view now := by
  funext peer
  rw [view, get?_reap]
  exact Option.filter_filter_self ..

@[simp] theorem reap_reap (table : PermissionTable) (now : Nat) :
    (table.reap now).reap now = table.reap now := by
  simp only [reap, Dictionary.filter_filter_self]

@[simp] theorem view_extend_reap (table : PermissionTable) (peer : IpAddress) (now : Nat) :
    ((table.reap now).extend peer now).view now = (table.extend peer now).view now := by
  funext other
  simp only [view, get?_extend]
  split
  · rfl
  · exact congrFun (view_reap table now) other

end PermissionTable

namespace ChannelTable

def view (table : ChannelTable) (now : Nat) (number : UInt16) : Option ChannelBinding :=
  (table.get? number).filter (!·.isExpired now)

theorem view_later (table : ChannelTable) {now later : Nat} (hle : now ≤ later) (number : UInt16) :
    (table.view now number).filter (!·.isExpired later) = table.view later number :=
  Option.filter_filter_of_imp (fun _ h => by simp [ChannelBinding.isExpired] at h ⊢; omega) _

@[simp] theorem view_reap (table : ChannelTable) (now : Nat) :
    (table.reap now).view now = table.view now := by
  funext number
  rw [view, get?_reap]
  exact Option.filter_filter_self ..

theorem expiredPeers_reap (table : ChannelTable) (now : Nat) :
    (table.reap now).expiredPeers now = [] := by
  apply List.eq_nil_iff_forall_not_mem.2
  intro peer hpeer
  obtain ⟨number, binding, hbinding, hexpired, _⟩ := mem_expiredPeers.1 hpeer
  have hlive := (Option.filter_eq_some_iff.1 ((Dictionary.get?_filter ..).symm.trans hbinding)).2
  rw [hexpired] at hlive
  cases hlive

@[simp] theorem reap_reap (table : ChannelTable) (now : Nat) :
    (table.reap now).reap now = table.reap now := by
  have hbindings : (table.reap now).bindings.filter (fun _ binding => !binding.isExpired now) =
      (table.reap now).bindings := Dictionary.filter_filter_self ..
  have hnumbers : (table.reap now).numbers.filter
      (fun peer _ => peer ∉ (table.reap now).expiredPeers now) = (table.reap now).numbers :=
    Dictionary.filter_eq_self fun e _ => by simp [expiredPeers_reap]
  rw [reap, hbindings, hnumbers]

theorem number?_eq_some_iff {table : ChannelTable} (h : table.Paired) {peer : TransportAddress}
    {now : Nat} {number : UInt16} : table.number? peer now = some number ↔
      ∃ binding, table.view now number = some binding ∧ binding.peer = peer := by
  simp only [number?, Option.bind_eq_bind, Option.bind_eq_some_iff, view, Option.filter_eq_some_iff]
  constructor
  · rintro ⟨other, hnumber, binding, hbinding, hsome⟩
    split at hsome
    · cases hsome
    · next hlive =>
      cases hsome
      obtain ⟨paired, hpaired, hpeer⟩ := (h peer number).1 hnumber
      obtain rfl : binding = paired := Option.some.inj (hbinding.symm.trans hpaired)
      exact ⟨binding, ⟨hbinding, by simpa using hlive⟩, hpeer⟩
  · rintro ⟨binding, ⟨hbinding, hlive⟩, hpeer⟩
    refine ⟨number, (h peer number).2 ⟨binding, hbinding, hpeer⟩, binding, hbinding, ?_⟩
    rw [if_neg (by simpa using hlive)]

theorem number?_reap {table : ChannelTable} (h : table.Paired) (now : Nat) :
    (fun peer => (table.reap now).number? peer now) = fun peer => table.number? peer now := by
  funext peer
  apply Option.ext
  intro number
  rw [number?_eq_some_iff (h.reap now), number?_eq_some_iff h, view_reap]

theorem bind_reap (table : ChannelTable) {number : UInt16} (h : isChannelNumber number = true)
    (peer : TransportAddress) (now : Nat) :
    (table.reap now).bind number peer now = table.bind number peer now := by
  simp [bind, h]

end ChannelTable

/-- What is live of an allocation. -/
structure AllocationView where
  tuple : FiveTuple
  username : String
  relay : TransportAddress
  created : Nat
  ends : Nat
  permissions : IpAddress → Option Nat
  channels : UInt16 → Option ChannelBinding
  numbers : TransportAddress → Option UInt16

namespace Allocation

def view (a : Allocation) (now : Nat) : AllocationView where
  tuple := a.tuple
  username := a.username
  relay := a.relay
  created := a.created
  ends := a.ends
  permissions := a.permissions.view now
  channels := a.channels.view now
  numbers := fun peer => a.channels.number? peer now

variable {a : Allocation}

@[simp] theorem sweep_sweep (a : Allocation) (now : Nat) : (a.sweep now).sweep now = a.sweep now := by
  simp [sweep]

theorem view_sweep (h : a.channels.Paired) (now : Nat) : (a.sweep now).view now = a.view now := by
  simp [view, sweep, ChannelTable.number?_reap h]

theorem view_channels_reap (h : a.channels.Paired) (now : Nat) :
    ({ a with channels := a.channels.reap now } : Allocation).view now = a.view now := by
  simp [view, ChannelTable.number?_reap h]

theorem view_extend_sweep (h : a.channels.Paired) (now ends : Nat) :
    ((a.sweep now).extend ends).view now = (a.extend ends).view now := by
  simp [view, sweep, extend, ChannelTable.number?_reap h]

theorem view_bind_sweep (a : Allocation) (channels : ChannelTable) (now : Nat) :
    ({ a.sweep now with channels := channels } : Allocation).view now =
      ({ a with channels := channels } : Allocation).view now := by
  simp [view, sweep]

theorem view_permit_sweep (a : Allocation) (channels : ChannelTable) (peer : IpAddress) (now : Nat) :
    (({ a.sweep now with channels := channels } : Allocation).permit peer now).view now =
      (({ a with channels := channels } : Allocation).permit peer now).view now := by
  simp [view, sweep, permit]

theorem view_permitEach_sweep (h : a.channels.Paired) (peers : List IpAddress) (now : Nat) :
    ((a.sweep now).permitEach peers now).view now = (a.permitEach peers now).view now := by
  have hpermissions : ((a.sweep now).permitEach peers now).permissions.view now =
      (a.permitEach peers now).permissions.view now := by
    funext other
    simp only [PermissionTable.view, get?_permitEach]
    split
    · rfl
    · exact congrFun (PermissionTable.view_reap a.permissions now) other
  rw [permitEach_eq, permitEach_eq a, view, view, hpermissions]
  simp [sweep, ChannelTable.number?_reap h]

end Allocation

namespace AllocationTable

def seen (now : Nat) (entry : Option Allocation) : Option AllocationView :=
  (entry.filter (!·.isExpired now)).map (·.view now)

def view (table : AllocationTable) (now : Nat) (tuple : FiveTuple) : Option AllocationView :=
  (table.find? tuple now).map (·.view now)

variable {table first second : AllocationTable} {now : Nat} {tuple : FiveTuple} {a b : Allocation}

theorem view_eq_seen (table : AllocationTable) (now : Nat) (tuple : FiveTuple) :
    table.view now tuple = seen now (table.allocations.get? tuple) := rfl

theorem seen_congr (h : a.view now = b.view now) : seen now (some a) = seen now (some b) := by
  have hends : a.ends = b.ends := congrArg AllocationView.ends h
  have hexpired : a.isExpired now = b.isExpired now := by simp only [Allocation.isExpired, hends]
  cases hlive : b.isExpired now with
  | true => simp [seen, Option.filter, hexpired, hlive]
  | false => simp [seen, Option.filter, hexpired, hlive, h]

theorem view_put_congr (htable : first.view now = second.view now) (h : a.view now = b.view now)
    (tuple : FiveTuple) : (first.put tuple a).view now = (second.put tuple b).view now := by
  funext other
  simp only [view_eq_seen, get?_put]
  split
  · exact seen_congr h
  · exact congrFun htable other

theorem view_put_of_view (hb : table.allocations.get? tuple = some b) (h : a.view now = b.view now) :
    (table.put tuple a).view now = table.view now := by
  funext other
  simp only [view_eq_seen, get?_put]
  split
  · next hother =>
    rw [hother, hb]
    exact seen_congr h
  · rfl

end AllocationTable

namespace Holdings

open AllocationTable

variable {h : Holdings} {now : Nat} {tuple : FiveTuple} {user : String}

theorem seen_kept {entry : Option Allocation} (hpaired : ∀ a, entry = some a → a.channels.Paired) :
    seen now (kept now entry) = seen now entry := by
  cases entry with
  | none => rfl
  | some a =>
    cases hexpired : a.isExpired now with
    | true => simp [seen, kept, Option.filter, hexpired]
    | false =>
      have hlive : (a.sweep now).isExpired now = false := hexpired
      simp [seen, kept, Option.filter, hexpired, hlive, Allocation.view_sweep (hpaired a rfl)]

theorem view_reap (hs : h.Sound) (now : Nat) :
    (h.reap now).2.table.view now = h.table.view now := by
  funext tuple
  simp only [view_eq_seen, get?_reap]
  exact seen_kept fun _ ha => (hs.wellFormed.fits ha).paired

theorem mem_reap (hs : h.Sound) {a : Allocation} :
    a ∈ (h.reap now).1 ↔ h.table.allocations.get? a.tuple = some a ∧ a.ends ≤ now := by
  change a ∈ (h.evict _).1 ↔ _
  simp only [mem_evict, Allocation.isExpired_eq_true_iff]
  constructor
  · rintro ⟨tuple, ha, hexpired⟩
    rw [(hs.wellFormed.fits ha).tuple_eq]
    exact ⟨ha, hexpired⟩
  · rintro ⟨ha, hexpired⟩
    exact ⟨a.tuple, ha, hexpired⟩

theorem nodup_reap (hs : h.Sound) (now : Nat) : (h.reap now).1.Nodup := by
  have hkeys := (h.table.allocations.filter fun _ a => a.isExpired now).nodup
  rw [List.nodup_iff_pairwise_ne, List.pairwise_map] at hkeys
  change (List.map _ _).Nodup
  rw [List.nodup_iff_pairwise_ne, List.pairwise_map]
  refine hkeys.imp_of_mem fun {e f} he hf hne hsame => hne ?_
  have hfits {entry : FiveTuple × Allocation}
      (hentry : entry ∈ (h.table.allocations.filter fun _ a => a.isExpired now).entries) :
      entry.2.tuple = entry.1 :=
    (hs.wellFormed.fits (Dictionary.get?_eq_some_iff.2 (List.mem_filter.1 hentry).1)).tuple_eq
  rw [← hfits he, ← hfits hf, hsame]

theorem mem_taken_reap {port : UInt16} : port ∈ (h.reap now).2.pool.taken ↔
    port ∈ h.pool.taken ∧ ∀ a ∈ (h.reap now).1, a.relay.port ≠ port := by
  refine PortPool.mem_taken_releaseAll.trans (and_congr_right fun _ => ?_)
  rw [List.mem_map]
  exact ⟨fun hnot a ha hport => hnot ⟨a, ha, hport⟩, fun hnot ⟨a, ha, hport⟩ => hnot a ha hport⟩

theorem view_remove_congr {h' : Holdings} (htable : h.table.view now = h'.table.view now)
    (tuple : FiveTuple) :
    (h.remove tuple).2.table.view now = (h'.remove tuple).2.table.view now := by
  funext other
  simp only [view_eq_seen, get?_remove]
  split
  · rfl
  · exact congrFun htable other

theorem reap_reap (h : Holdings) (now : Nat) : (h.reap now).2.reap now = ([], (h.reap now).2) := by
  have hevict : (h.reap now).2.evict (fun _ a => a.isExpired now) = ([], (h.reap now).2) :=
    evict_eq_self fun tuple a ha => by simp [live_of_get?_reap ha]
  have hsweep : (h.reap now).2.table.allocations.map (·.sweep now) =
      (h.reap now).2.table.allocations := by
    apply Dictionary.ext
    simp [reap, Dictionary.map, Function.comp_def]
  rw [reap, hevict]
  simp only [hsweep]

theorem find?_reap (h : Holdings) (now : Nat) (tuple : FiveTuple) :
    (h.reap now).2.table.find? tuple now = (h.table.find? tuple now).map (·.sweep now) := by
  rw [find?, get?_reap, kept, find?]
  cases h.table.allocations.get? tuple with
  | none => rfl
  | some a =>
    cases hexpired : a.isExpired now with
    | true => simp [Option.filter, hexpired]
    | false =>
      have hlive : (a.sweep now).isExpired now = false := hexpired
      simp [Option.filter, hexpired, hlive]

theorem owned_reap (h : Holdings) (now : Nat) (tuple : FiveTuple) (user : String) :
    (h.reap now).2.table.owned tuple user now =
      (h.table.owned tuple user now).map (·.sweep now) := by
  rw [owned, find?_reap, owned]
  cases h.table.find? tuple now with
  | none => rfl
  | some a =>
    have huser : (a.sweep now).username = a.username := rfl
    simp only [Option.map_some, huser]
    split <;> rfl

end Holdings

end TurnRelay

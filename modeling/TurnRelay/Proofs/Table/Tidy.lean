import TurnRelay.Proofs.Table.Sound

namespace TurnRelay

theorem Dictionary.insert_of_get? {κ α : Type} [DecidableEq κ] {d : Dictionary κ α} {key : κ} {value : α}
    (h : d.get? key = some value) : d.insert key value = d := by
  have hkey : key ∈ d.keys := mem_keys_iff.2 ⟨value, h⟩
  rw [insert, dif_pos hkey]
  apply ext
  calc d.entries.map (fun e => if e.1 = key then (e.1, value) else e)
      = d.entries.map id := List.map_congr_left fun e he => by
        by_cases hk : e.1 = key
        · have hvalue := (get?_eq_some_iff.2 he).symm.trans (hk ▸ h)
          rw [if_pos hk, ← Option.some.inj hvalue]
          rfl
        · exact if_neg hk
    _ = d.entries := List.map_id _

variable {now : Nat}

namespace PermissionTable

variable {table : PermissionTable} {peer : IpAddress}

def Live (table : PermissionTable) (now : Nat) : Prop :=
  ∀ peer ends, table.get? peer = some ends → now < ends

theorem live_fresh (lifetime now : Nat) : (fresh lifetime).Live now := by
  intro peer ends hends
  rw [get?_fresh] at hends
  cases hends

theorem live_reap (table : PermissionTable) (now : Nat) : (table.reap now).Live now := by
  intro peer ends hends
  rw [get?_reap, Option.filter_eq_some_iff] at hends
  exact of_decide_eq_true hends.2

theorem Live.reap_eq (h : table.Live now) : table.reap now = table := by
  have hentries : table.entries.filter (fun _ ends => decide (now < ends)) = table.entries :=
    Dictionary.filter_eq_self fun e he =>
      decide_eq_true (h e.1 e.2 (Dictionary.get?_eq_some_iff.2 he))
  rw [reap, hentries]

theorem Live.extend (h : table.Live now) (hlifetime : 0 < table.lifetime) (peer : IpAddress) :
    (table.extend peer now).Live now := by
  intro other ends hends
  rw [get?_extend] at hends
  split at hends
  · rw [← Option.some.inj hends]
    exact Nat.lt_add_of_pos_right hlifetime
  · exact h other ends hends

theorem extend_of_get? (h : table.get? peer = some (now + table.lifetime)) :
    table.extend peer now = table := by
  rw [extend, Dictionary.insert_of_get? h]

end PermissionTable

namespace ChannelTable

variable {table : ChannelTable} {number : UInt16} {peer : TransportAddress}

def Live (table : ChannelTable) (now : Nat) : Prop :=
  ∀ number binding, table.get? number = some binding → now < binding.ends

theorem live_fresh (lifetime now : Nat) : (fresh lifetime).Live now := by
  intro number binding hbinding
  rw [get?_fresh] at hbinding
  cases hbinding

theorem live_reap (table : ChannelTable) (now : Nat) : (table.reap now).Live now := by
  intro number binding hbinding
  rw [get?_reap, Option.filter_eq_some_iff] at hbinding
  simpa [ChannelBinding.isExpired] using hbinding.2

theorem Live.reap_eq (h : table.Live now) : table.reap now = table := by
  have hlive : ∀ number binding, table.get? number = some binding → binding.isExpired now = false :=
    fun number binding hbinding => by simpa [ChannelBinding.isExpired] using h number binding hbinding
  have hbindings : table.bindings.filter (fun _ binding => !binding.isExpired now) = table.bindings :=
    Dictionary.filter_eq_self fun e he => by
      rw [hlive e.1 e.2 (Dictionary.get?_eq_some_iff.2 he)]
      rfl
  have hnumbers : table.numbers.filter (fun peer _ => peer ∉ table.expiredPeers now) = table.numbers := by
    apply Dictionary.filter_eq_self
    intro e _
    apply decide_eq_true
    intro hmem
    obtain ⟨number, binding, hbinding, hexpired, -⟩ := mem_expiredPeers.1 hmem
    rw [hlive number binding hbinding] at hexpired
    cases hexpired
  rw [reap, hbindings, hnumbers]

theorem Live.store (h : table.Live now) (hlifetime : 0 < table.lifetime) (number : UInt16)
    (peer : TransportAddress) : (table.store number peer now).Live now := by
  intro other binding hbinding
  rw [get?_store] at hbinding
  split at hbinding
  · rw [← Option.some.inj hbinding]
    exact Nat.lt_add_of_pos_right hlifetime
  · exact h other binding hbinding

theorem bind_of_bound (h : table.Live now) (hpaired : table.Paired) (hnumber : isChannelNumber number = true)
    (hbound : table.get? number = some ⟨peer, now + table.lifetime⟩) :
    table.bind number peer now = (.ok false, table) := by
  have hpeer : table.numbers.get? peer = some number := (hpaired peer number).2 ⟨_, hbound, rfl⟩
  have hbinding : table.bindings.get? number = some ⟨peer, now + table.lifetime⟩ := hbound
  have hadmits : table.admits number peer = true := by simp [admits, hbinding, hpeer]
  have hstore : table.store number peer now = table := by
    rw [store, Dictionary.insert_of_get? hbinding, Dictionary.insert_of_get? hpeer]
  simp only [bind, hnumber, if_true, h.reap_eq, hadmits, hstore, Dictionary.contains, hbinding]
  rfl

end ChannelTable

namespace Allocation

variable {a : Allocation}

structure Tidy (now : Nat) (a : Allocation) : Prop where
  live : now < a.ends
  permissions : a.permissions.Live now
  channels : a.channels.Live now

theorem tidy_sweep (h : now < a.ends) : (a.sweep now).Tidy now :=
  ⟨h, PermissionTable.live_reap _ now, ChannelTable.live_reap _ now⟩

theorem Tidy.sweep_eq (h : a.Tidy now) : a.sweep now = a := by
  rw [sweep, h.permissions.reap_eq, h.channels.reap_eq]

theorem Tidy.permit (h : a.Tidy now) (hlifetime : 0 < a.permissions.lifetime) (peer : IpAddress) :
    (a.permit peer now).Tidy now :=
  ⟨h.live, h.permissions.extend hlifetime peer, h.channels⟩

theorem Tidy.permitEach (h : a.Tidy now) (hlifetime : 0 < a.permissions.lifetime)
    (peers : List IpAddress) : (a.permitEach peers now).Tidy now := by
  induction peers generalizing a with
  | nil => exact h
  | cons peer peers ih => exact ih (h.permit hlifetime peer) hlifetime

theorem permit_of_get? {peer : IpAddress}
    (h : a.permissions.get? peer = some (now + a.permissions.lifetime)) : a.permit peer now = a := by
  rw [permit, PermissionTable.extend_of_get? h]

theorem permitEach_of_get? {peers : List IpAddress}
    (h : ∀ peer ∈ peers, a.permissions.get? peer = some (now + a.permissions.lifetime)) :
    a.permitEach peers now = a := by
  induction peers with
  | nil => rfl
  | cons peer peers ih =>
    rw [permitEach_cons, permit_of_get? (h peer List.mem_cons_self)]
    exact ih fun other hother => h other (List.mem_cons_of_mem _ hother)

end Allocation

theorem AllocationTable.put_of_get? {table : AllocationTable} {tuple : FiveTuple} {a : Allocation}
    (h : table.allocations.get? tuple = some a) : table.put tuple a = table := by
  rw [put, Dictionary.insert_of_get? h]

def AllocationTable.Tidy (table : AllocationTable) (now : Nat) : Prop :=
  ∀ tuple a, table.allocations.get? tuple = some a → a.Tidy now

namespace Holdings

variable {h : Holdings} {tuple : FiveTuple} {a : Allocation}

theorem tidy_reap (h : Holdings) (now : Nat) : (h.reap now).2.table.Tidy now := by
  intro tuple a ha
  rw [get?_reap, kept_eq_some_iff] at ha
  obtain ⟨b, -, hlive, rfl⟩ := ha
  exact Allocation.tidy_sweep hlive

theorem reap_of_tidy (htidy : h.table.Tidy now) : h.reap now = ([], h) := by
  have hevict : h.evict (fun _ a => a.isExpired now) = ([], h) :=
    evict_eq_self fun tuple a ha => Allocation.isExpired_eq_false_iff.2 (htidy tuple a ha).live
  have hsweep : h.table.allocations.map (·.sweep now) = h.table.allocations := by
    apply Dictionary.ext
    calc h.table.allocations.entries.map (fun e => (e.1, e.2.sweep now))
        = h.table.allocations.entries.map id := List.map_congr_left fun e he => by
          rw [(htidy e.1 e.2 (Dictionary.get?_eq_some_iff.2 he)).sweep_eq]
          rfl
      _ = h.table.allocations.entries := List.map_id _
  simp only [reap, hevict, hsweep]

theorem tidy_evict (htidy : h.table.Tidy now) (chosen : FiveTuple → Allocation → Bool) :
    (h.evict chosen).2.table.Tidy now := by
  intro tuple a ha
  rw [get?_evict, Option.filter_eq_some_iff] at ha
  exact htidy tuple a ha.1

theorem tidy_grant (htidy : h.table.Tidy now) {lifetime : Nat} (hlifetime : 0 < lifetime)
    (tuple : FiveTuple) (user : String) (port : UInt16) (pool : PortPool) :
    (h.grant tuple user port pool lifetime now).table.Tidy now := by
  intro other a ha
  rw [get?_grant] at ha
  split at ha
  · rw [← Option.some.inj ha]
    exact ⟨Nat.lt_add_of_pos_right hlifetime, PermissionTable.live_fresh _ now,
      ChannelTable.live_fresh _ now⟩
  · exact htidy other a ha

end Holdings

theorem AllocationTable.Tidy.put {table : AllocationTable} {tuple : FiveTuple} {a : Allocation}
    (h : table.Tidy now) (ha : a.Tidy now) : (table.put tuple a).Tidy now := by
  intro other b hb
  rw [get?_put] at hb
  split at hb
  · exact Option.some.inj hb ▸ ha
  · exact h other b hb

end TurnRelay

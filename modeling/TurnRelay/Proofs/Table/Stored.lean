import TurnRelay.AllocationTable

namespace TurnRelay

namespace Dictionary

variable {κ α : Type}

theorem size_filter (d : Dictionary κ α) (keep : κ → α → Bool) :
    (d.filter fun key value => !keep key value).size + (d.filter keep).size = d.size := by
  have hlength : d.entries.length = _ :=
    List.length_eq_countP_add_countP fun e : κ × α => keep e.1 e.2
  simp only [List.countP_eq_length_filter, decide_not, Bool.decide_eq_true] at hlength
  simp only [size, filter]
  omega

theorem filter_eq_self {d : Dictionary κ α} {keep : κ → α → Bool}
    (h : ∀ e ∈ d.entries, keep e.1 e.2 = true) : d.filter keep = d :=
  ext (List.filter_eq_self.2 h)

theorem filter_eq_empty {d : Dictionary κ α} {keep : κ → α → Bool}
    (h : ∀ e ∈ d.entries, keep e.1 e.2 = false) : d.filter keep = ∅ := by
  apply ext
  apply List.filter_eq_nil_iff.2
  intro e he
  simp [h e he]

variable [DecidableEq κ]

theorem insert_insert (d : Dictionary κ α) (key : κ) (first second : α) :
    (d.insert key first).insert key second = d.insert key second := by
  apply ext
  by_cases h : key ∈ d.keys
  · have hkey : key ∈ (d.insert key first).keys :=
      mem_keys_iff.2 ⟨first, by rw [get?_insert, if_pos rfl]⟩
    rw [insert, dif_pos hkey, insert, dif_pos h, insert, dif_pos h]
    simp only [List.map_map]
    apply List.map_congr_left
    intro e _
    by_cases hk : e.1 = key <;> simp [hk]
  · have hkey : key ∈ (d.insert key first).keys :=
      mem_keys_iff.2 ⟨first, by rw [get?_insert, if_pos rfl]⟩
    have habsent : ∀ e ∈ d.entries, e.1 ≠ key := fun e he hk =>
      h (List.mem_map.2 ⟨e, he, hk⟩)
    rw [insert, dif_pos hkey, insert, dif_neg h, insert, dif_neg h]
    simp only [List.map_append, List.map_cons, List.map_nil, if_true]
    congr 1
    calc d.entries.map (fun e => if e.1 = key then (e.1, second) else e)
        = d.entries.map id := List.map_congr_left fun e he => if_neg (habsent e he)
      _ = d.entries := List.map_id _

theorem get?_insert_self (d : Dictionary κ α) (key : κ) (value : α) :
    (d.insert key value).get? key = some value := by
  rw [get?_insert, if_pos rfl]

theorem size_insert (d : Dictionary κ α) (key : κ) (value : α) :
    (d.insert key value).size = if (d.get? key).isSome then d.size else d.size + 1 := by
  have hmem : key ∈ d.keys ↔ (d.get? key).isSome = true := by
    rw [mem_keys_iff, Option.isSome_iff_exists]
  by_cases h : key ∈ d.keys
  · rw [if_pos (hmem.1 h), insert, dif_pos h]
    simp only [size, List.length_map]
  · rw [if_neg (mt hmem.2 h), insert, dif_neg h]
    simp only [size, List.length_append, List.length_cons, List.length_nil]

theorem filter_key_eq {d : Dictionary κ α} {key : κ} {value : α} (h : d.get? key = some value) :
    (d.filter fun k _ => k = key).entries = [(key, value)] := by
  obtain ⟨before, after, hsplit⟩ := List.append_of_mem (get?_eq_some_iff.1 h)
  have hnodup := d.nodup
  rw [hsplit, List.map_append, List.map_cons] at hnodup
  have hnot := List.perm_middle.nodup_iff.1 hnodup
  have hothers : ∀ e ∈ before ++ after, e.1 ≠ key := by
    intro e he hk
    apply (List.nodup_cons.1 hnot).1
    rw [← List.map_append]
    exact List.mem_map.2 ⟨e, he, hk⟩
  have hbefore : before.filter (fun e => decide (e.1 = key)) = [] :=
    List.filter_eq_nil_iff.2 fun e he => by simp [hothers e (List.mem_append_left _ he)]
  have hafter : after.filter (fun e => decide (e.1 = key)) = [] :=
    List.filter_eq_nil_iff.2 fun e he => by simp [hothers e (List.mem_append_right _ he)]
  simp only [filter, hsplit, List.filter_append, hbefore, List.filter_cons, decide_true, if_true,
    hafter, List.nil_append]

end Dictionary

namespace ChannelTable

theorem bind_cases (table : ChannelTable) (number : UInt16) (peer : TransportAddress) (now : Nat) :
    table.bind number peer now = (.error .invalidInput, table) ∨
    table.bind number peer now = (.error .invalidInput, table.reap now) ∨
    (table.reap now).admits number peer = true ∧
      table.bind number peer now = (.ok !(table.reap now).bindings.contains number,
        (table.reap now).store number peer now) := by
  unfold bind
  by_cases hnumber : isChannelNumber number
  · by_cases hadmits : (table.reap now).admits number peer
    · simp [hnumber, hadmits]
    · simp [hnumber, hadmits]
  · simp [hnumber]

end ChannelTable

namespace Allocation

@[simp] theorem isExpired_eq_false_iff {a : Allocation} {now : Nat} :
    a.isExpired now = false ↔ now < a.ends := by
  simp [isExpired]

@[simp] theorem isExpired_eq_true_iff {a : Allocation} {now : Nat} :
    a.isExpired now = true ↔ a.ends ≤ now := by
  simp [isExpired]

def permitEach (a : Allocation) (peers : List IpAddress) (now : Nat) : Allocation :=
  peers.foldl (·.permit · now) a

@[simp] theorem permitEach_cons (a : Allocation) (peer : IpAddress) (peers : List IpAddress)
    (now : Nat) : a.permitEach (peer :: peers) now = (a.permit peer now).permitEach peers now := rfl

theorem permitEach_eq (a : Allocation) (peers : List IpAddress) (now : Nat) :
    a.permitEach peers now = { a with permissions := (a.permitEach peers now).permissions } := by
  induction peers generalizing a with
  | nil => rfl
  | cons peer peers ih =>
    rw [permitEach_cons, ih]
    rfl

theorem get?_permit (a : Allocation) (peer other : IpAddress) (now : Nat) :
    (a.permit peer now).permissions.get? other =
      if other = peer then some (now + a.permissions.lifetime) else a.permissions.get? other :=
  PermissionTable.get?_extend ..

@[simp] theorem lifetime_permitEach (a : Allocation) (peers : List IpAddress) (now : Nat) :
    (a.permitEach peers now).permissions.lifetime = a.permissions.lifetime := by
  induction peers generalizing a with
  | nil => rfl
  | cons peer peers ih => exact ih _

theorem get?_permitEach (a : Allocation) (peers : List IpAddress) (other : IpAddress) (now : Nat) :
    (a.permitEach peers now).permissions.get? other =
      if other ∈ peers then some (now + a.permissions.lifetime) else a.permissions.get? other := by
  induction peers generalizing a with
  | nil => rfl
  | cons peer peers ih =>
    rw [permitEach_cons, ih, get?_permit]
    by_cases h : other ∈ peers <;> by_cases hp : other = peer <;>
      simp [h, hp, permit, PermissionTable.extend]

theorem get?_sweep {a : Allocation} {now : Nat} {ip : IpAddress} {ends : Nat} :
    (a.sweep now).permissions.get? ip = some ends ↔ a.permissions.get? ip = some ends ∧ now < ends := by
  simp [sweep, PermissionTable.get?_reap, Option.filter_eq_some_iff]

end Allocation

namespace AllocationTable

variable {table : AllocationTable} {tuple : FiveTuple} {a : Allocation} {user : String} {now : Nat}

theorem find?_eq_some_iff :
    table.find? tuple now = some a ↔ table.allocations.get? tuple = some a ∧ now < a.ends := by
  simp [find?, Option.filter_eq_some_iff]

theorem get?_put (table : AllocationTable) (tuple other : FiveTuple) (a : Allocation) :
    (table.put tuple a).allocations.get? other =
      if other = tuple then some a else table.allocations.get? other :=
  Dictionary.get?_insert ..

theorem get?_put_self (table : AllocationTable) (tuple : FiveTuple) (a : Allocation) :
    (table.put tuple a).allocations.get? tuple = some a :=
  Dictionary.get?_insert_self ..

theorem put_put (table : AllocationTable) (tuple : FiveTuple) (a b : Allocation) :
    (table.put tuple a).put tuple b = table.put tuple b := by
  simp only [put, Dictionary.insert_insert]

theorem find?_put (table : AllocationTable) (tuple : FiveTuple) (h : now < a.ends) :
    (table.put tuple a).find? tuple now = some a :=
  find?_eq_some_iff.2 ⟨get?_put_self table tuple a, h⟩

theorem owned_eq_ok_iff :
    table.owned tuple user now = .ok a ↔ table.find? tuple now = some a ∧ a.username = user := by
  unfold owned
  cases table.find? tuple now with
  | none => simp
  | some b =>
    by_cases h : b.username = user
    · simp only [if_pos h, Except.ok.injEq, Option.some.injEq]
      constructor
      · rintro rfl; exact ⟨rfl, h⟩
      · exact And.left
    · simp only [if_neg h, reduceCtorEq, Option.some.injEq, false_iff, not_and]
      rintro rfl; exact h

theorem owned_eq_error_iff {e : PacketError} : table.owned tuple user now = .error e ↔
    table.find? tuple now = none ∧ e = .invalidInput ∨
      ∃ a, table.find? tuple now = some a ∧ a.username ≠ user ∧ e = .integrityFailed := by
  unfold owned
  cases table.find? tuple now with
  | none => simp [eq_comm]
  | some b =>
    by_cases h : b.username = user
    · simp [h]
    · simp [h, eq_comm (a := e)]

theorem stored_of_owned (h : table.owned tuple user now = .ok a) :
    table.allocations.get? tuple = some a ∧ a.username = user := by
  obtain ⟨hfind, huser⟩ := owned_eq_ok_iff.1 h
  exact ⟨(find?_eq_some_iff.1 hfind).1, huser⟩

theorem eq_of_get?_put {b : Allocation} (h : (table.put tuple a).allocations.get? tuple = some b) :
    a = b :=
  Option.some.inj ((get?_put_self table tuple a).symm.trans h)

theorem permit_of_owned {peer : IpAddress} (h : table.owned tuple user now = .ok a) :
    table.permit tuple user peer now =
      .ok (!a.isPermitted peer now, table.put tuple (a.permit peer now)) := by
  simp only [permit, h]
  rfl

theorem permit_of_error {peer : IpAddress} {e : PacketError}
    (h : table.owned tuple user now = .error e) : table.permit tuple user peer now = .error e := by
  simp only [permit, h]
  rfl

theorem owned_put_permit (peer : IpAddress) (h : table.owned tuple user now = .ok a) :
    (table.put tuple (a.permit peer now)).owned tuple user now = .ok (a.permit peer now) :=
  let ⟨hfind, huser⟩ := owned_eq_ok_iff.1 h
  owned_eq_ok_iff.2 ⟨find?_put table tuple (find?_eq_some_iff.1 hfind).2, huser⟩

theorem permitAll_of_owned {peers : List IpAddress} (h : table.owned tuple user now = .ok a) :
    peers ≠ [] →
    table.permitAll tuple user peers now = .ok (table.put tuple (a.permitEach peers now)) := by
  induction peers generalizing table a with
  | nil => exact fun hne => absurd rfl hne
  | cons peer peers ih =>
    intro _
    have hstep : table.permitAll tuple user (peer :: peers) now =
        (table.put tuple (a.permit peer now)).permitAll tuple user peers now := by
      simp only [permitAll, List.foldlM_cons, permit_of_owned h]
      rfl
    rw [hstep]
    cases peers with
    | nil => rfl
    | cons next peers =>
      rw [ih (owned_put_permit peer h) (List.cons_ne_nil _ _), put_put]
      rfl

theorem permitAll_of_error {peers : List IpAddress} {e : PacketError}
    (h : table.owned tuple user now = .error e) (hne : peers ≠ []) :
    table.permitAll tuple user peers now = .error e := by
  cases peers with
  | nil => exact absurd rfl hne
  | cons peer peers =>
    simp only [permitAll, List.foldlM_cons, permit_of_error h]
    rfl

end AllocationTable

namespace Holdings

theorem get?_evict (h : Holdings) (chosen : FiveTuple → Allocation → Bool) (tuple : FiveTuple) :
    (h.evict chosen).2.table.allocations.get? tuple =
      (h.table.allocations.get? tuple).filter (!chosen tuple ·) :=
  Dictionary.get?_filter ..

theorem get?_remove (h : Holdings) (tuple other : FiveTuple) :
    (h.remove tuple).2.table.allocations.get? other =
      if other = tuple then none else h.table.allocations.get? other := by
  apply (get?_evict ..).trans
  cases h.table.allocations.get? other with
  | none => simp
  | some a => by_cases hother : other = tuple <;> simp [hother, Option.filter]

theorem mem_evict {h : Holdings} {chosen : FiveTuple → Allocation → Bool} {a : Allocation} :
    a ∈ (h.evict chosen).1 ↔
      ∃ tuple, h.table.allocations.get? tuple = some a ∧ chosen tuple a = true := by
  simp [evict, Dictionary.mem_values_iff, Dictionary.get?_filter, Option.filter_eq_some_iff]

theorem size_evict (h : Holdings) (chosen : FiveTuple → Allocation → Bool) :
    (h.evict chosen).2.table.size + (h.evict chosen).1.length = h.table.size := by
  have hlength : (h.evict chosen).1.length = (h.table.allocations.filter chosen).size :=
    List.length_map _
  rw [hlength]
  exact Dictionary.size_filter ..

theorem evict_tuple {h : Holdings} {tuple : FiveTuple} {a : Allocation}
    (ha : h.table.allocations.get? tuple = some a) : (h.evict fun t _ => t = tuple).1 = [a] := by
  have hentries := Dictionary.filter_key_eq ha
  simp only [evict, Dictionary.values, hentries, List.map_cons, List.map_nil]

theorem remove_of_stored {h : Holdings} {tuple : FiveTuple} {a : Allocation}
    (ha : h.table.allocations.get? tuple = some a) : (h.remove tuple).1 = some a :=
  congrArg List.head? (evict_tuple ha)

theorem evict_eq_self {h : Holdings} {chosen : FiveTuple → Allocation → Bool}
    (hnone : ∀ tuple a, h.table.allocations.get? tuple = some a → chosen tuple a = false) :
    h.evict chosen = ([], h) := by
  have hkeep : ∀ e ∈ h.table.allocations.entries, chosen e.1 e.2 = false := fun e he =>
    hnone e.1 e.2 (Dictionary.get?_eq_some_iff.2 he)
  have hgone : h.table.allocations.filter chosen = ∅ := Dictionary.filter_eq_empty hkeep
  have hrest : (h.table.allocations.filter fun tuple a => !chosen tuple a) = h.table.allocations :=
    Dictionary.filter_eq_self fun e he => by simp [hkeep e he]
  have howners : (h.table.owners.filter fun port _ => port ∉ ([] : List UInt16)) = h.table.owners :=
    Dictionary.filter_eq_self fun e _ => by simp
  simp only [evict, hgone, hrest]
  exact congrArg (fun owners => ([], ({ table := { h.table with owners := owners }, pool := h.pool } : Holdings)))
    howners

/-- The part of an entry that a reap leaves. -/
def kept (now : Nat) (entry : Option Allocation) : Option Allocation :=
  (entry.filter (!·.isExpired now)).map (·.sweep now)

theorem kept_eq_some_iff {now : Nat} {entry : Option Allocation} {a : Allocation} :
    kept now entry = some a ↔ ∃ b, entry = some b ∧ now < b.ends ∧ b.sweep now = a := by
  simp [kept, Option.filter_eq_some_iff, and_assoc]

theorem get?_reap (h : Holdings) (now : Nat) (tuple : FiveTuple) :
    (h.reap now).2.table.allocations.get? tuple = kept now (h.table.allocations.get? tuple) := by
  simp only [reap, Dictionary.get?_map, get?_evict]
  rfl

theorem live_of_get?_reap {h : Holdings} {now : Nat} {tuple : FiveTuple} {a : Allocation}
    (ha : (h.reap now).2.table.allocations.get? tuple = some a) : now < a.ends := by
  rw [get?_reap, kept_eq_some_iff] at ha
  cases ha with
  | intro b hb => exact hb.2.2 ▸ hb.2.1

theorem dropExpired_reap (h : Holdings) (tuple : FiveTuple) (now : Nat) :
    (h.reap now).2.dropExpired tuple now = (h.reap now).2 := by
  rw [dropExpired, evict_eq_self]
  intro other a ha
  simp [live_of_get?_reap ha]

theorem get?_dropExpired (h : Holdings) (tuple other : FiveTuple) (now : Nat) :
    (h.dropExpired tuple now).table.allocations.get? other =
      if other = tuple then h.table.find? tuple now else h.table.allocations.get? other := by
  apply (get?_evict ..).trans
  by_cases hother : other = tuple
  · subst hother
    simp [AllocationTable.find?]
  · cases h.table.allocations.get? other <;> simp [hother, Option.filter]

theorem dropExpired_of_find? {h : Holdings} {tuple : FiveTuple} {now : Nat} {a : Allocation}
    (hfind : h.table.find? tuple now = some a) : h.dropExpired tuple now = h := by
  obtain ⟨ha, hlive⟩ := AllocationTable.find?_eq_some_iff.1 hfind
  rw [dropExpired, evict_eq_self]
  intro other b hb
  by_cases hother : other = tuple
  · subst hother
    obtain rfl : a = b := Option.some.inj (ha.symm.trans hb)
    simp [hlive]
  · simp [hother]

theorem get?_grant (h : Holdings) (tuple other : FiveTuple) (user : String) (port : UInt16)
    (pool : PortPool) (lifetime now : Nat) :
    (h.grant tuple user port pool lifetime now).table.allocations.get? other =
      if other = tuple then
        some
          { tuple := tuple
            username := user
            relay := h.table.relayIp.withPort port
            created := now
            ends := now + lifetime
            permissions := .fresh h.table.permissionLifetime
            channels := .fresh h.table.channelLifetime }
      else h.table.allocations.get? other :=
  Dictionary.get?_insert ..

inductive Allocated (random : Randomness) (h : Holdings) (draws : Draws) (tuple : FiveTuple)
    (user : String) (lifetime now : Nat) : Except PacketError AllocateOutcome × Holdings × Draws → Prop
  | refreshed {a : Allocation} : h.table.allocations.get? tuple = some a → a.username = user →
      Allocated random h draws tuple user lifetime now (.ok (.refreshed a.relay),
        { h with table := h.table.put tuple (a.extend (now + lifetime)) }, draws)
  | foreign {a : Allocation} : h.table.allocations.get? tuple = some a → a.username ≠ user →
      Allocated random h draws tuple user lifetime now (.error .integrityFailed, h, draws)
  | exhausted {after : Draws} : h.table.allocations.get? tuple = none →
      h.pool.draw random draws = (none, after) →
      Allocated random h draws tuple user lifetime now (.error .invalidInput, h, after)
  | created {port : UInt16} {pool : PortPool} {after : Draws} :
      h.table.allocations.get? tuple = none → h.pool.draw random draws = (some (port, pool), after) →
      Allocated random h draws tuple user lifetime now
        (.ok (.created (h.table.relayIp.withPort port)),
          h.grant tuple user port pool lifetime now, after)

theorem allocate_spec (random : Randomness) (h : Holdings) (draws : Draws) (tuple : FiveTuple)
    (user : String) (lifetime now : Nat) :
    Allocated random (h.dropExpired tuple now) draws tuple user lifetime now
      (h.allocate random draws tuple user lifetime now) := by
  unfold allocate
  generalize h.dropExpired tuple now = h
  cases hentry : h.table.allocations.get? tuple with
  | some a =>
    by_cases huser : a.username = user
    · simp only [hentry, if_pos huser]
      exact .refreshed hentry huser
    · simp only [hentry, if_neg huser]
      exact .foreign hentry huser
  | none =>
    rcases hdraw : h.pool.draw random draws with ⟨found, after⟩
    cases found with
    | none =>
      simp only [hentry, hdraw]
      exact .exhausted hentry hdraw
    | some taken =>
      simp only [hentry, hdraw]
      exact .created hentry hdraw

theorem allocate_of_owned {h : Holdings} {tuple : FiveTuple} {user : String} {a : Allocation} {now : Nat}
    (howned : h.table.owned tuple user now = .ok a) (random : Randomness) (draws : Draws) (lifetime : Nat) :
    h.allocate random draws tuple user lifetime now = (.ok (.refreshed a.relay),
      { h with table := h.table.put tuple (a.extend (now + lifetime)) }, draws) := by
  obtain ⟨hfind, huser⟩ := AllocationTable.owned_eq_ok_iff.1 howned
  have ha := (AllocationTable.find?_eq_some_iff.1 hfind).1
  simp only [allocate, dropExpired_of_find? hfind, ha, if_pos huser]

section refresh

variable {h : Holdings} {tuple : FiveTuple} {user : String} {a : Allocation} {lifetime now : Nat}

theorem refresh_of_error {e : PacketError} (herror : h.table.owned tuple user now = .error e) :
    h.refresh tuple user lifetime now = .error e := by
  simp only [refresh, herror, bind, Except.bind]

theorem refresh_of_owned (howned : h.table.owned tuple user now = .ok a) :
    h.refresh tuple user lifetime now =
      if lifetime = 0 then .ok (.deleted a, (h.remove tuple).2)
      else .ok (.refreshed, { h with table := h.table.put tuple (a.extend (now + lifetime)) }) := by
  have hremoved := remove_of_stored (AllocationTable.stored_of_owned howned).1
  simp only [refresh, howned, bind, Except.bind]
  rcases hremove : h.remove tuple with ⟨gone, after⟩
  rw [hremove] at hremoved
  obtain rfl : gone = some a := hremoved
  rfl

end refresh

end Holdings

end TurnRelay

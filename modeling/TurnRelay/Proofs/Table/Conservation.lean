import TurnRelay.Proofs.Table.Sound

namespace TurnRelay.Holdings

variable {h : Holdings} {tuple : FiveTuple} {a b : Allocation} {user : String} {now : Nat}

theorem ports_evict (hs : h.Sound) (chosen : FiveTuple → Allocation → Bool) {port : UInt16}
    {tuple : FiveTuple} : (h.evict chosen).2.table.owners.get? port = some tuple ↔
      ∃ a, (h.evict chosen).2.table.allocations.get? tuple = some a ∧ a.relay.port = port := by
  have hgone : port ∈ (h.evict chosen).1.map (·.relay.port) ↔
      ∃ other b, h.table.allocations.get? other = some b ∧ chosen other b = true ∧
        b.relay.port = port := by
    simp only [List.mem_map, mem_evict]
    grind
  have howner : (h.evict chosen).2.table.owners.get? port = some tuple ↔
      h.table.owners.get? port = some tuple ∧ port ∉ (h.evict chosen).1.map (·.relay.port) := by
    simp [evict, Dictionary.get?_filter, Option.filter_eq_some_iff]
  rw [howner, hgone]
  simp only [get?_evict, Option.filter_eq_some_iff, Bool.not_eq_true']
  constructor
  · rintro ⟨hport, hkept⟩
    obtain ⟨a, ha, rfl⟩ := hs.wellFormed.owner_iff.1 hport
    refine ⟨a, ⟨ha, ?_⟩, rfl⟩
    apply Bool.eq_false_iff.2
    exact fun hc => hkept ⟨tuple, a, ha, hc, rfl⟩
  · rintro ⟨a, ⟨ha, hc⟩, rfl⟩
    refine ⟨hs.wellFormed.owner ha, ?_⟩
    rintro ⟨other, b, hb, hcb, hport⟩
    obtain rfl := hs.wellFormed.tuple_unique hb ha hport
    obtain rfl : a = b := Option.some.inj (ha.symm.trans hb)
    rw [hc] at hcb
    cases hcb

theorem conserves_evict (hs : h.Sound) (chosen : FiveTuple → Allocation → Bool) :
    h.Conserves (h.evict chosen).2 := by
  have hfits : ∀ {tuple a}, (h.evict chosen).2.table.allocations.get? tuple = some a →
      h.table.allocations.get? tuple = some a := by
    intro tuple a ha
    rw [get?_evict, Option.filter_eq_some_iff] at ha
    exact ha.1
  have hwell : (h.evict chosen).2.table.WellFormed :=
    ⟨fun ha => let f := hs.wellFormed.fits (hfits ha)
      ⟨f.tuple_eq, f.relay_eq, f.permission_lifetime, f.channel_lifetime, f.paired⟩, ports_evict hs chosen⟩
  -- the ports of the evicted are the ports that are owned no longer
  have hgone : ∀ port, port ∈ (h.evict chosen).1.map (·.relay.port) ↔
      port ∈ h.table.ports ∧ port ∉ (h.evict chosen).2.table.ports := by
    intro port
    have hports : port ∈ (h.evict chosen).2.table.ports ↔
        port ∈ h.table.ports ∧ port ∉ (h.evict chosen).1.map (·.relay.port) := by
      simp only [AllocationTable.ports, Dictionary.mem_keys_iff, evict, Dictionary.get?_filter,
        Option.filter_eq_some_iff]
      grind
    have hsub : port ∈ (h.evict chosen).1.map (·.relay.port) → port ∈ h.table.ports := by
      simp only [List.mem_map, mem_evict, hs.wellFormed.ports_iff]
      grind
    rw [hports]
    grind
  have htaken : ∀ port, port ∈ (h.evict chosen).2.pool.taken ↔
      port ∈ h.pool.taken ∧ port ∉ (h.evict chosen).1.map (·.relay.port) := fun port =>
    PortPool.mem_taken_releaseAll
  have hsub : ∀ port ∈ (h.evict chosen).2.table.ports, port ∈ h.table.ports := by
    intro port hport
    obtain ⟨tuple, a, ha, rfl⟩ := hwell.ports_iff.1 hport
    exact hs.wellFormed.ports_iff.2 ⟨tuple, a, hfits ha, rfl⟩
  refine ⟨⟨hwell, ?_, PortPool.nodup_taken_releaseAll _ hs.nodup⟩, ?_, ?_,
    PortPool.range_releaseAll .., rfl, rfl, rfl⟩
  · intro port hport
    exact (htaken port).2 ⟨hs.taken port (hsub port hport), fun hg => ((hgone port).1 hg).2 hport⟩
  · intro port
    rw [Foreign, Foreign, htaken, hgone]
    grind
  · exact fun port hport => .inl ((htaken port).1 hport).1

theorem conserves_map (hs : h.Sound) {f : Allocation → Allocation}
    (hfits : ∀ {tuple a}, h.table.Fits tuple a → h.table.Fits tuple (f a))
    (hrelay : ∀ a, (f a).relay = a.relay) :
    h.Conserves { h with table := { h.table with allocations := h.table.allocations.map f } } := by
  refine ⟨⟨⟨?_, ?_⟩, hs.taken, hs.nodup⟩, fun _ => Iff.rfl, fun _ => .inl, rfl, rfl, rfl, rfl⟩
  · intro tuple a ha
    simp only [Dictionary.get?_map, Option.map_eq_some_iff] at ha
    obtain ⟨b, hb, rfl⟩ := ha
    have f := hfits (hs.wellFormed.fits hb)
    exact ⟨f.tuple_eq, f.relay_eq, f.permission_lifetime, f.channel_lifetime, f.paired⟩
  · intro port tuple
    rw [hs.wellFormed.owner_iff]
    simp only [Dictionary.get?_map, Option.map_eq_some_iff]
    constructor
    · rintro ⟨a, ha, rfl⟩; exact ⟨f a, ⟨a, ha, rfl⟩, by rw [hrelay]⟩
    · rintro ⟨_, ⟨a, ha, rfl⟩, rfl⟩; exact ⟨a, ha, by rw [hrelay]⟩

theorem conserves_put (hs : h.Sound) (ha : h.table.allocations.get? tuple = some a)
    (hfits : h.table.Fits tuple b) (hrelay : b.relay = a.relay) :
    h.Conserves { h with table := h.table.put tuple b } := by
  refine ⟨⟨⟨?_, ?_⟩, hs.taken, hs.nodup⟩, fun _ => Iff.rfl, fun _ => .inl, rfl, rfl, rfl, rfl⟩
  · intro other c hc
    have f : h.table.Fits other c := by
      rw [AllocationTable.get?_put] at hc
      split at hc
      · cases hc; subst tuple; exact hfits
      · exact hs.wellFormed.fits hc
    exact ⟨f.tuple_eq, f.relay_eq, f.permission_lifetime, f.channel_lifetime, f.paired⟩
  · intro port other
    rw [AllocationTable.get?_put]
    by_cases ht : other = tuple
    · subst ht
      rw [if_pos rfl]
      constructor
      · intro hport
        obtain ⟨c, hc, rfl⟩ := hs.wellFormed.owner_iff.1 hport
        obtain rfl : a = c := Option.some.inj (ha.symm.trans hc)
        exact ⟨b, rfl, by rw [hrelay]⟩
      · rintro ⟨c, hc, rfl⟩
        cases hc
        exact hrelay ▸ hs.wellFormed.owner ha
    · rw [if_neg ht]
      exact hs.wellFormed.owner_iff

theorem conserves_reap (hs : h.Sound) (now : Nat) : h.Conserves (h.reap now).2 :=
  have hevict := conserves_evict hs fun _ a => a.isExpired now
  hevict.trans (conserves_map hevict.sound (fun hf => hf.sweep now) fun _ => rfl)

theorem conserves_clear (hs : h.Sound) : h.Conserves h.clear.2 := conserves_evict hs _

theorem conserves_dropExpired (hs : h.Sound) (tuple : FiveTuple) (now : Nat) :
    h.Conserves (h.dropExpired tuple now) := conserves_evict hs _

theorem conserves_remove (hs : h.Sound) (tuple : FiveTuple) : h.Conserves (h.remove tuple).2 :=
  conserves_evict hs _

section grant

variable {pool : PortPool} {port other : UInt16} {lifetime : Nat}

theorem mem_ports_grant : other ∈ (h.grant tuple user port pool lifetime now).table.ports ↔
    other = port ∨ other ∈ h.table.ports := by
  simp only [AllocationTable.ports, Dictionary.mem_keys_iff, grant, Dictionary.get?_insert]
  by_cases hp : other = port <;> simp [hp]

theorem fits_grant (hs : h.Sound) {third : FiveTuple} {a : Allocation}
    (ha : (h.grant tuple user port pool lifetime now).table.allocations.get? third = some a) :
    h.table.Fits third a := by
  rw [get?_grant] at ha
  split at ha
  · next ht =>
    cases ha
    rw [ht]
    exact ⟨rfl, by simp, rfl, rfl, ChannelTable.paired_fresh _⟩
  · exact hs.wellFormed.fits ha

theorem owner_grant_iff (hs : h.Sound) (hunowned : port ∉ h.table.ports)
    (hnone : h.table.allocations.get? tuple = none) {third : FiveTuple} :
    (h.grant tuple user port pool lifetime now).table.owners.get? other = some third ↔
      ∃ a, (h.grant tuple user port pool lifetime now).table.allocations.get? third = some a ∧
        a.relay.port = other := by
  rw [get?_grant]
  simp only [grant, Dictionary.get?_insert]
  by_cases hp : other = port <;> by_cases ht : third = tuple
  · subst hp ht
    simp
  · subst hp
    rw [if_pos rfl, if_neg ht]
    constructor
    · exact fun he => absurd (Option.some.inj he).symm ht
    · rintro ⟨a, ha, rfl⟩
      exact absurd (hs.wellFormed.ports_iff.2 ⟨third, a, ha, rfl⟩) hunowned
  · subst ht
    rw [if_neg hp, if_pos rfl, hs.wellFormed.owner_iff]
    simp [hnone, Ne.symm hp]
  · rw [if_neg hp, if_neg ht]
    exact hs.wellFormed.owner_iff

theorem wellFormed_grant (hs : h.Sound) (hunowned : port ∉ h.table.ports)
    (hnone : h.table.allocations.get? tuple = none) :
    (h.grant tuple user port pool lifetime now).table.WellFormed where
  fits ha := by
    have f := fits_grant hs ha
    exact ⟨f.tuple_eq, f.relay_eq, f.permission_lifetime, f.channel_lifetime, f.paired⟩
  owner_iff := owner_grant_iff hs hunowned hnone

end grant

theorem conserves_grant (hs : h.Sound) {random : Randomness} {pool : PortPool} {draws after : Draws}
    {port : UInt16} (hnone : h.table.allocations.get? tuple = none)
    (hdraw : h.pool.draw random draws = (some (port, pool), after)) (user : String)
    (lifetime now : Nat) : h.Conserves (h.grant tuple user port pool lifetime now) := by
  obtain ⟨hfree, hrange, rfl⟩ := PortPool.draw_eq_some hdraw
  have hunowned : port ∉ h.table.ports := fun hp => hfree (hs.taken port hp)
  have htaken : ∀ other,
      other ∈ (h.grant tuple user port (h.pool.take port) lifetime now).pool.taken ↔
        other ∈ h.pool.taken ∨ other = port := by
    simp [grant]
  refine ⟨⟨wellFormed_grant hs hunowned hnone, ?_, ?_⟩, ?_, ?_, rfl, rfl, rfl, rfl⟩
  · intro other ho
    rw [htaken]
    rcases mem_ports_grant.1 ho with ho | ho
    · exact .inr ho
    · exact .inl (hs.taken other ho)
  · exact PortPool.nodup_taken_take hs.nodup hfree
  · intro other
    rw [Foreign, Foreign, htaken, mem_ports_grant]
    grind
  · intro other ho
    rcases (htaken other).1 ho with ho | ho
    · exact .inl ho
    · exact .inr (ho ▸ hrange)

end TurnRelay.Holdings

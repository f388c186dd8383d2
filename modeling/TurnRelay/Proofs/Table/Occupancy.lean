import TurnRelay.Proofs.Table.Conservation

namespace TurnRelay.Holdings

variable {h other : Holdings} {tuple : FiveTuple} {now : Nat}

def foreignPorts (h : Holdings) : List UInt16 := h.pool.taken.filter (· ∉ h.table.ports)

@[simp] theorem mem_foreignPorts {port : UInt16} : port ∈ h.foreignPorts ↔ h.Foreign port := by
  simp [foreignPorts, Foreign]

theorem owners_perm (hs : h.Sound) : h.table.owners.values.Perm h.table.allocations.keys := by
  have hkeys := List.nodup_iff_pairwise_ne.1 h.table.owners.nodup
  have hvalues : h.table.owners.values.Nodup := by
    rw [Dictionary.values, List.nodup_iff_pairwise_ne, List.pairwise_map]
    rw [List.pairwise_map] at hkeys
    -- two ports of one 5-tuple would both be the port of its allocation
    refine hkeys.imp_of_mem fun {e f} he hf hne hsame => hne ?_
    obtain ⟨a, ha, hport⟩ := hs.wellFormed.owner_iff.1 (Dictionary.get?_eq_some_iff.2 he)
    obtain ⟨b, hb, hport'⟩ := hs.wellFormed.owner_iff.1 (Dictionary.get?_eq_some_iff.2 hf)
    rw [hsame] at ha
    obtain rfl : a = b := Option.some.inj (ha.symm.trans hb)
    exact hport.symm.trans hport'
  refine (List.perm_ext_iff_of_nodup hvalues h.table.allocations.nodup).2 fun tuple => ?_
  refine Dictionary.mem_values_iff.trans (Iff.trans ?_ Dictionary.mem_keys_iff.symm)
  constructor
  · rintro ⟨port, hport⟩
    obtain ⟨a, ha, -⟩ := hs.wellFormed.owner_iff.1 hport
    exact ⟨a, ha⟩
  · rintro ⟨a, ha⟩
    exact ⟨a.relay.port, hs.wellFormed.owner ha⟩

theorem length_ports (hs : h.Sound) : h.table.ports.length = h.table.size := by
  have hlength := (owners_perm hs).length_eq
  simp only [Dictionary.values, Dictionary.keys, List.length_map] at hlength
  simpa [AllocationTable.ports, Dictionary.keys, AllocationTable.size, Dictionary.size] using hlength

theorem inUse_eq (hs : h.Sound) : h.pool.inUse = h.foreignPorts.length + h.table.size := by
  have hperm : h.pool.taken.Perm (h.foreignPorts ++ h.table.ports) := by
    have hnodup : (h.foreignPorts ++ h.table.ports).Nodup := by
      refine List.nodup_append.2 ⟨hs.nodup.sublist List.filter_sublist, h.table.owners.nodup, ?_⟩
      rintro port hforeign _ howned rfl
      exact (mem_foreignPorts.1 hforeign).2 howned
    rw [List.perm_ext_iff_of_nodup hs.nodup hnodup]
    intro port
    rw [List.mem_append, mem_foreignPorts, Foreign]
    have htaken := hs.taken port
    grind
  rw [PortPool.inUse, hperm.length_eq, List.length_append, length_ports hs]

/-- `h` has no 5-tuple that `other` has not, beside the same ports of others. -/
structure Leaner (h other : Holdings) : Prop where
  stored : ∀ tuple, (h.table.allocations.get? tuple).isSome = true →
    (other.table.allocations.get? tuple).isSome = true
  foreign_iff : ∀ port, h.Foreign port ↔ other.Foreign port
  range_eq : h.pool.range = other.pool.range

namespace Leaner

theorem refl (h : Holdings) : h.Leaner h := ⟨fun _ => id, fun _ => Iff.rfl, rfl⟩

theorem size_le (hl : h.Leaner other) : h.table.size ≤ other.table.size := by
  have hsubset : h.table.allocations.keys ⊆ other.table.allocations.keys := by
    intro tuple
    simp only [Dictionary.mem_keys_iff, ← Option.isSome_iff_exists]
    exact hl.stored tuple
  have hle := h.table.allocations.nodup.length_le_of_subset hsubset
  simpa [Dictionary.keys, AllocationTable.size, Dictionary.size] using hle

theorem inUse_le (hl : h.Leaner other) (hs : h.Sound) (hother : other.Sound) :
    h.pool.inUse ≤ other.pool.inUse := by
  have hforeign : h.foreignPorts.length ≤ other.foreignPorts.length := by
    refine (hs.nodup.sublist List.filter_sublist).length_le_of_subset fun port hport => ?_
    exact mem_foreignPorts.2 ((hl.foreign_iff port).1 (mem_foreignPorts.1 hport))
  have hsize := hl.size_le
  rw [inUse_eq hs, inUse_eq hother]
  omega

theorem not_exhausted (hl : h.Leaner other) (hs : h.Sound) (hother : other.Sound)
    (hroom : other.pool.isExhausted = false) : h.pool.isExhausted = false := by
  have hle := hl.inUse_le hs hother
  have hrange := hl.range_eq
  simp only [PortPool.isExhausted, decide_eq_false_iff_not, Nat.not_le] at hroom ⊢
  rw [hrange]
  omega

theorem step {after otherAfter : Holdings} (hl : h.Leaner other) (hc : h.Conserves after)
    (hother : other.Conserves otherAfter)
    (hstored : ∀ tuple, (after.table.allocations.get? tuple).isSome = true →
      (otherAfter.table.allocations.get? tuple).isSome = true) : after.Leaner otherAfter where
  stored := hstored
  foreign_iff port :=
    (hc.foreign_iff port).trans ((hl.foreign_iff port).trans (hother.foreign_iff port).symm)
  range_eq := hc.range_eq.trans (hl.range_eq.trans hother.range_eq.symm)

theorem reap (hl : h.Leaner other) (hs : h.Sound) (hother : other.Sound) (now : Nat) :
    (h.reap now).2.Leaner other := by
  refine hl.step (conserves_reap hs now) (.refl hother) fun tuple hsome => hl.stored tuple ?_
  rw [get?_reap, Option.isSome_iff_exists] at hsome
  obtain ⟨a, ha⟩ := hsome
  obtain ⟨b, hb, -⟩ := kept_eq_some_iff.1 ha
  rw [hb]
  rfl

theorem dropExpired (hl : h.Leaner other) (hs : h.Sound) (hother : other.Sound) (tuple : FiveTuple)
    (now : Nat) (hlive : (h.table.find? tuple now).isSome = true →
      (other.table.find? tuple now).isSome = true) :
    (h.dropExpired tuple now).Leaner (other.dropExpired tuple now) := by
  refine hl.step (conserves_dropExpired hs tuple now) (conserves_dropExpired hother tuple now) ?_
  intro third hsome
  rw [get?_dropExpired] at hsome ⊢
  by_cases hthird : third = tuple
  · rw [if_pos hthird] at hsome ⊢
    exact hlive hsome
  · rw [if_neg hthird] at hsome ⊢
    exact hl.stored third hsome

end Leaner

end TurnRelay.Holdings

import TurnRelay.PortPool

namespace TurnRelay

namespace PortRange

theorem contains_iff {range : PortRange} {port : UInt16} :
    range.contains port = true ↔ range.start ≤ port ∧ port ≤ range.stop := by
  simp [contains]

theorem isEmpty_eq_false {range : PortRange} {place : Nat} (h : place < range.size) :
    range.isEmpty = false := by
  apply Bool.eq_false_iff.2
  intro hempty
  simp [size, hempty] at h

theorem size_eq {range : PortRange} (h : range.isEmpty = false) :
    range.start.toNat ≤ range.stop.toNat ∧
      range.size = range.stop.toNat - range.start.toNat + 1 := by
  constructor
  · simp only [isEmpty, Bool.or_eq_false_iff, decide_eq_false_iff_not, UInt16.lt_iff_toNat_lt] at h
    omega
  · simp [size, h]

theorem start_add_le_stop {range : PortRange} {place : Nat} (h : place < range.size) :
    range.start.toNat + place ≤ range.stop.toNat := by
  have hsize := size_eq (isEmpty_eq_false h)
  omega

theorem toNat_start_add {range : PortRange} {place : Nat} (h : place < range.size) :
    (UInt16.ofNat (range.start.toNat + place)).toNat = range.start.toNat + place := by
  have hle := start_add_le_stop h
  have hstop : range.stop.toNat < 65536 := range.stop.toNat_lt
  rw [UInt16.toNat_ofNat', Nat.mod_eq_of_lt (by omega)]

theorem mod_size_lt {range : PortRange} {i : Nat} (h : i < range.size) (offset : Nat) :
    (offset + i) % range.size < range.size :=
  Nat.mod_lt _ (Nat.zero_lt_of_lt h)

theorem map_toNat_rotation (range : PortRange) (offset : Nat) :
    (range.rotation offset).map UInt16.toNat =
      (List.range range.size).map fun i => range.start.toNat + (offset + i) % range.size := by
  rw [rotation, List.map_map]
  apply List.map_congr_left
  intro i hi
  exact toNat_start_add (mod_size_lt (List.mem_range.1 hi) offset)

theorem contains_of_mem_rotation {range : PortRange} {offset : Nat} {port : UInt16}
    (h : port ∈ range.rotation offset) : range.contains port = true := by
  simp only [rotation, List.mem_map, List.mem_range] at h
  obtain ⟨i, hi, rfl⟩ := h
  have hplace := mod_size_lt hi offset
  rw [contains_iff, UInt16.le_iff_toNat_le, UInt16.le_iff_toNat_le, toNat_start_add hplace]
  exact ⟨Nat.le_add_right .., start_add_le_stop hplace⟩

theorem length_rotation (range : PortRange) (offset : Nat) : (range.rotation offset).length = range.size := by
  simp [rotation]

theorem offset_mod_inj {size offset i j : Nat} (hi : i < size) (hj : j < size)
    (h : (offset + i) % size = (offset + j) % size) : i = j := by
  have hij := Nat.sub_mod_eq_zero_of_mod_eq h
  have hji := Nat.sub_mod_eq_zero_of_mod_eq h.symm
  rw [Nat.add_sub_add_left, Nat.mod_eq_of_lt (by omega)] at hij hji
  omega

theorem nodup_rotation (range : PortRange) (offset : Nat) : (range.rotation offset).Nodup := by
  rw [rotation, List.nodup_iff_pairwise_ne, List.pairwise_map]
  refine (List.nodup_iff_pairwise_ne.1 List.nodup_range).imp_of_mem fun {i j} hi hj hne hport => hne ?_
  rw [List.mem_range] at hi hj
  have hports := congrArg UInt16.toNat hport
  rw [toNat_start_add (mod_size_lt hi offset), toNat_start_add (mod_size_lt hj offset)] at hports
  exact offset_mod_inj hi hj (Nat.add_left_cancel hports)

theorem exists_offset_mod {size place : Nat} (hplace : place < size) (offset : Nat) :
    ∃ i < size, (offset + i) % size = place := by
  have hrest : offset % size < size := Nat.mod_lt _ (by omega)
  refine ⟨(place + (size - offset % size)) % size, Nat.mod_lt _ (by omega), ?_⟩
  calc (offset + (place + (size - offset % size)) % size) % size
      = (offset + (place + (size - offset % size))) % size := Nat.add_mod_mod ..
    _ = (place + size * (offset / size + 1)) % size := by
        have hoffset := Nat.mod_add_div offset size
        rw [Nat.mul_add, Nat.mul_one]
        congr 1
        omega
    _ = place := by rw [Nat.add_mul_mod_self_left, Nat.mod_eq_of_lt hplace]

theorem mem_rotation {range : PortRange} {port : UInt16} (hrange : range.isEmpty = false)
    (hport : range.contains port = true) (offset : Nat) : port ∈ range.rotation offset := by
  rw [contains_iff, UInt16.le_iff_toNat_le, UInt16.le_iff_toNat_le] at hport
  have hsize := size_eq hrange
  have hplace : port.toNat - range.start.toNat < range.size := by omega
  obtain ⟨i, hi, hmod⟩ := exists_offset_mod hplace offset
  refine List.mem_map.2 ⟨i, List.mem_range.2 hi, ?_⟩
  rw [hmod, Nat.add_sub_cancel' hport.1, UInt16.ofNat_toNat]

theorem mem_rotation_iff {range : PortRange} {offset : Nat} {port : UInt16} :
    port ∈ range.rotation offset ↔ range.isEmpty = false ∧ range.contains port = true := by
  constructor
  · intro h
    have hsize := List.length_pos_of_mem h
    rw [length_rotation] at hsize
    exact ⟨isEmpty_eq_false hsize, contains_of_mem_rotation h⟩
  · rintro ⟨hrange, hport⟩
    exact mem_rotation hrange hport offset

theorem length_le_size {range : PortRange} {ports : List UInt16} (hrange : range.isEmpty = false)
    (hnodup : ports.Nodup) (hports : ∀ port ∈ ports, range.contains port = true) :
    ports.length ≤ range.size := by
  have hsubset : ports ⊆ range.rotation 0 := fun port hport => mem_rotation hrange (hports port hport) 0
  have hle := hnodup.length_le_of_subset hsubset
  rwa [length_rotation] at hle

end PortRange

/-- The ports of the pool that are taken are different ports of its range. -/
structure PortPool.Orderly (pool : PortPool) : Prop where
  nodup : pool.taken.Nodup
  in_range : ∀ port ∈ pool.taken, pool.range.contains port = true
  nonempty : pool.taken ≠ [] → pool.range.isEmpty = false

namespace PortPool

variable {pool after : PortPool} {port : UInt16} {offset : Nat} {random : Randomness}
  {draws draws' : Draws}

theorem isExhausted_eq_false_iff : pool.isExhausted = false ↔ pool.inUse < pool.range.size := by
  rw [isExhausted, decide_eq_false_iff_not, Nat.not_le]

theorem acquire_eq_none (h : pool.isExhausted = true) (offset : Nat) : pool.acquire offset = none := by
  simp [acquire, h]

theorem acquire_eq_some (h : pool.acquire offset = some (port, after)) :
    port ∉ pool.taken ∧ pool.range.contains port = true ∧ after = pool.take port := by
  unfold acquire at h
  split at h
  · cases h
  · simp only [Option.map_eq_some_iff, Prod.mk.injEq] at h
    obtain ⟨found, hfind, rfl, rfl⟩ := h
    exact ⟨by simpa using List.find?_some hfind,
      PortRange.contains_of_mem_rotation (List.mem_of_find?_eq_some hfind), rfl⟩

theorem exists_acquire (h : pool.isExhausted = false) (offset : Nat) :
    ∃ port, pool.acquire offset = some (port, pool.take port) := by
  have hroom : pool.taken.length < pool.range.size := isExhausted_eq_false_iff.1 h
  cases hfind : (pool.range.rotation offset).find? (· ∉ pool.taken) with
  | some port =>
    refine ⟨port, ?_⟩
    simp only [acquire, h, hfind]
    rfl
  | none =>
    -- the rotation has more ports than are taken
    have hsubset : pool.range.rotation offset ⊆ pool.taken := fun port hport => by
      simpa using List.find?_eq_none.1 hfind port hport
    have hle := (pool.range.nodup_rotation offset).length_le_of_subset hsubset
    rw [PortRange.length_rotation] at hle
    omega

theorem isEmpty_of_acquire (h : pool.acquire offset = some (port, after)) :
    pool.range.isEmpty = false := by
  cases hexhausted : pool.isExhausted with
  | true =>
    rw [acquire_eq_none hexhausted] at h
    cases h
  | false => exact PortRange.isEmpty_eq_false (isExhausted_eq_false_iff.1 hexhausted)

theorem draw_eq (random : Randomness) (pool : PortPool) (draws : Draws) :
    pool.draw random draws = (pool.acquire (random.offset draws.offsets),
      if pool.inUse < pool.range.size then { draws with offsets := draws.offsets + 1 } else draws) := by
  cases hexhausted : pool.isExhausted with
  | true =>
    have hfull : pool.range.size ≤ pool.inUse := of_decide_eq_true hexhausted
    simp [draw, hexhausted, acquire_eq_none, Nat.not_lt_of_le hfull]
  | false =>
    have hroom := isExhausted_eq_false_iff.1 hexhausted
    simp [draw, hexhausted, hroom]

theorem draw_fst (random : Randomness) (pool : PortPool) (draws : Draws) :
    (pool.draw random draws).1 = pool.acquire (random.offset draws.offsets) :=
  congrArg Prod.fst (draw_eq random pool draws)

theorem draw_eq_some (h : pool.draw random draws = (some (port, after), draws')) :
    port ∉ pool.taken ∧ pool.range.contains port = true ∧ after = pool.take port :=
  acquire_eq_some ((draw_fst random pool draws).symm.trans (congrArg Prod.fst h))

theorem isEmpty_of_draw (h : pool.draw random draws = (some (port, after), draws')) :
    pool.range.isEmpty = false :=
  isEmpty_of_acquire ((draw_fst random pool draws).symm.trans (congrArg Prod.fst h))

theorem isExhausted_of_draw (h : pool.draw random draws = (none, draws')) : pool.isExhausted = true := by
  cases hexhausted : pool.isExhausted with
  | true => rfl
  | false =>
    obtain ⟨port, hacquire⟩ := exists_acquire hexhausted (random.offset draws.offsets)
    rw [← draw_fst, h] at hacquire
    cases hacquire

theorem isExhausted_eq_false (hrange : pool.range.isEmpty = false) (hnodup : pool.taken.Nodup)
    (htaken : ∀ other ∈ pool.taken, pool.range.contains other = true)
    (hport : pool.range.contains port = true) (hfree : port ∉ pool.taken) : pool.isExhausted = false :=
  isExhausted_eq_false_iff.2 (PortRange.length_le_size hrange (List.nodup_cons.2 ⟨hfree, hnodup⟩)
    (List.forall_mem_cons.2 ⟨hport, htaken⟩))

theorem nodup_taken_take (h : pool.taken.Nodup) (hfree : port ∉ pool.taken) :
    (pool.take port).taken.Nodup := by
  refine List.nodup_append.2 ⟨h, by simp, ?_⟩
  intro other hother last hlast heq
  exact hfree (List.mem_singleton.1 hlast ▸ heq ▸ hother)

theorem nodup_taken_releaseAll (ports : List UInt16) (h : pool.taken.Nodup) :
    (pool.releaseAll ports).taken.Nodup := by
  induction ports generalizing pool with
  | nil => exact h
  | cons port ports ih => exact ih (nodup_taken_release port h)

@[simp] theorem range_releaseAll (pool : PortPool) (ports : List UInt16) :
    (pool.releaseAll ports).range = pool.range := by
  induction ports generalizing pool with
  | nil => rfl
  | cons port ports ih => exact ih _

theorem orderly_fresh (range : PortRange) : (fresh range).Orderly where
  nodup := List.nodup_nil
  in_range _ hport := (List.not_mem_nil hport).elim
  nonempty htaken := absurd rfl htaken

namespace Orderly

theorem of_subset (h : pool.Orderly) (hrange : after.range = pool.range) (hnodup : after.taken.Nodup)
    (hsubset : after.taken ⊆ pool.taken) : after.Orderly where
  nodup := hnodup
  in_range port hport := hrange ▸ h.in_range port (hsubset hport)
  nonempty htaken := by
    obtain ⟨port, hport⟩ := List.exists_mem_of_ne_nil _ htaken
    exact hrange ▸ h.nonempty (List.ne_nil_of_mem (hsubset hport))

theorem release (h : pool.Orderly) (port : UInt16) : (pool.release port).Orderly :=
  h.of_subset rfl (nodup_taken_release port h.nodup) fun _ hother => (mem_taken_release.1 hother).1

theorem releaseAll (h : pool.Orderly) (ports : List UInt16) : (pool.releaseAll ports).Orderly :=
  h.of_subset (range_releaseAll pool ports) (nodup_taken_releaseAll ports h.nodup)
    fun _ hport => (mem_taken_releaseAll.1 hport).1

theorem acquire (h : pool.Orderly) (hacquire : pool.acquire offset = some (port, after)) :
    after.Orderly := by
  have hrange := isEmpty_of_acquire hacquire
  obtain ⟨hfree, hport, rfl⟩ := acquire_eq_some hacquire
  refine ⟨?_, fun other hother => ?_, fun _ => hrange⟩
  · exact nodup_taken_take h.nodup hfree
  · rw [taken_take, List.mem_append, List.mem_singleton] at hother
    rcases hother with hother | rfl
    · exact h.in_range other hother
    · exact hport

theorem inUse_le (h : pool.Orderly) : pool.inUse ≤ pool.range.size := by
  by_cases htaken : pool.taken = []
  · simp [inUse, htaken]
  · exact PortRange.length_le_size (h.nonempty htaken) h.nodup h.in_range

end Orderly

end PortPool

end TurnRelay

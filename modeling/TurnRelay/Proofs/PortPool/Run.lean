import TurnRelay.Proofs.PortPool

namespace TurnRelay

inductive PortCall
  | acquire (offset : Nat)
  | release (port : UInt16)

structure PortRange.Searched (range : PortRange) : Prop where
  toNat_eq : ∀ offset, (range.rotation offset).map UInt16.toNat =
    (List.range range.size).map fun i => range.start.toNat + (offset + i) % range.size
  le_stop : ∀ place < range.size, range.start.toNat + place ≤ range.stop.toNat
  nodup : ∀ offset, (range.rotation offset).Nodup
  mem_iff : ∀ offset port, port ∈ range.rotation offset ↔
    range.isEmpty = false ∧ range.start ≤ port ∧ port ≤ range.stop

theorem PortRange.searched (range : PortRange) : range.Searched where
  toNat_eq := range.map_toNat_rotation
  le_stop _ := start_add_le_stop
  nodup := range.nodup_rotation
  mem_iff _ _ := by rw [mem_rotation_iff, contains_iff]

namespace PortPool

variable {pool after : PortPool} {port : UInt16}

def serve (pool : PortPool) : PortCall → Option UInt16 × PortPool
  | .acquire offset =>
    match pool.acquire offset with
    | some (port, after) => (some port, after)
    | none => (none, pool)
  | .release port => (none, pool.release port)

def run (pool : PortPool) (calls : List PortCall) : PortPool :=
  calls.foldl (fun pool call => (pool.serve call).2) pool

structure Takes (pool : PortPool) (port : UInt16) (after : PortPool) : Prop where
  free : port ∉ pool.taken
  in_range : pool.range.contains port = true
  mem_iff : ∀ other, other ∈ after.taken ↔ other = port ∨ other ∈ pool.taken
  inUse_eq : after.inUse = pool.inUse + 1
  range_eq : after.range = pool.range

theorem takes_of_acquire {offset : Nat} (h : pool.acquire offset = some (port, after)) :
    pool.Takes port after := by
  obtain ⟨hfree, hport, rfl⟩ := acquire_eq_some h
  refine ⟨hfree, hport, fun other => ?_, ?_, rfl⟩
  · rw [taken_take, List.mem_append, List.mem_singleton, or_comm]
  · simp [inUse]

/-- What a call can do. Only a pool of which all ports are taken refuses, and it stays as it is. -/
inductive Served (pool : PortPool) : PortCall → Option UInt16 × PortPool → Prop
  | acquired {offset : Nat} {port : UInt16} {after : PortPool} : pool.inUse < pool.range.size →
      pool.acquire offset = some (port, after) → Served pool (.acquire offset) (some port, after)
  | refused {offset : Nat} : pool.range.size ≤ pool.inUse → Served pool (.acquire offset) (none, pool)
  | released (port : UInt16) : Served pool (.release port) (none, pool.release port)

theorem serve_spec (pool : PortPool) (call : PortCall) : pool.Served call (pool.serve call) := by
  cases call with
  | acquire offset =>
    rcases Nat.lt_or_ge pool.inUse pool.range.size with hroom | hfull
    · obtain ⟨port, hacquire⟩ := exists_acquire (isExhausted_eq_false_iff.2 hroom) offset
      rw [serve, hacquire]
      exact .acquired hroom hacquire
    · rw [serve, acquire_eq_none (decide_eq_true hfull)]
      exact .refused hfull
  | release port => exact .released port

namespace Served

variable {call : PortCall} {result : Option UInt16 × PortPool}

theorem range_eq (h : pool.Served call result) : result.2.range = pool.range := by
  cases h with
  | acquired _ hacquire => exact (takes_of_acquire hacquire).range_eq
  | refused => rfl
  | released => rfl

theorem orderly (h : pool.Served call result) (hpool : pool.Orderly) : result.2.Orderly := by
  cases h with
  | acquired _ hacquire => exact hpool.acquire hacquire
  | refused => exact hpool
  | released port => exact hpool.release port

end Served

theorem range_run (pool : PortPool) (calls : List PortCall) : (pool.run calls).range = pool.range := by
  induction calls generalizing pool with
  | nil => rfl
  | cons call calls ih => exact (ih (pool.serve call).2).trans (pool.serve_spec call).range_eq

theorem Orderly.run (h : pool.Orderly) (calls : List PortCall) : (pool.run calls).Orderly := by
  induction calls generalizing pool with
  | nil => exact h
  | cons call calls ih => exact ih ((pool.serve_spec call).orderly h)

/-- What holds of a pool of this range between two calls, and what the next call makes of it. -/
structure Exact (pool : PortPool) (range : PortRange) : Prop where
  range_eq : pool.range = range
  searched : range.Searched
  nodup : pool.taken.Nodup
  in_range : ∀ port ∈ pool.taken, range.start ≤ port ∧ port ≤ range.stop
  inUse_le : pool.inUse ≤ range.size
  available_add : pool.available + pool.inUse = range.size
  acquires_iff : ∀ offset, (∃ port after, pool.serve (.acquire offset) = (some port, after) ∧
    pool.Takes port after) ↔ pool.inUse < range.size
  refuses : ∀ offset, range.size ≤ pool.inUse → pool.serve (.acquire offset) = (none, pool)
  draw_eq : ∀ random draws, pool.draw random draws = (pool.acquire (random.offset draws.offsets),
    if pool.inUse < range.size then { draws with offsets := draws.offsets + 1 } else draws)
  releases : ∀ port, (pool.serve (.release port)).1 = none ∧
    ∀ other, other ∈ (pool.serve (.release port)).2.taken ↔ other ∈ pool.taken ∧ other ≠ port

theorem Orderly.exact (h : pool.Orderly) : pool.Exact pool.range where
  range_eq := rfl
  searched := pool.range.searched
  nodup := h.nodup
  in_range port hport := PortRange.contains_iff.1 (h.in_range port hport)
  inUse_le := h.inUse_le
  available_add := Nat.sub_add_cancel h.inUse_le
  acquires_iff offset := by
    have hserved := pool.serve_spec (.acquire offset)
    constructor
    · rintro ⟨port, after, hserve, -⟩
      rw [hserve] at hserved
      cases hserved with
      | acquired hroom _ => exact hroom
    · intro hroom
      generalize pool.serve (.acquire offset) = result at hserved
      cases hserved with
      | @acquired _ port after _ hacquire => exact ⟨port, after, rfl, takes_of_acquire hacquire⟩
      | refused hfull => exact absurd hroom (Nat.not_lt_of_le hfull)
  refuses offset hfull := by
    have hserved := pool.serve_spec (.acquire offset)
    generalize pool.serve (.acquire offset) = result at hserved
    cases hserved with
    | acquired hroom _ => exact absurd hroom (Nat.not_lt_of_le hfull)
    | refused => rfl
  draw_eq random draws := pool.draw_eq random draws
  releases port := ⟨rfl, fun _ => mem_taken_release⟩

theorem run_exact (range : PortRange) (calls : List PortCall) : ((fresh range).run calls).Exact range := by
  have hexact := ((orderly_fresh range).run calls).exact
  rwa [range_run] at hexact

example : (((fresh ⟨65534, 65535⟩).run [.acquire 1]).serve (.acquire 1)).1 = some 65534 := by decide

example :
    let full := (fresh ⟨50000, 50002⟩).run [.acquire 2, .acquire 2, .acquire 0]
    (full.serve (.acquire 1)).1 = none ∧
      ((full.run [.release 50001, .release 9]).serve (.acquire 0)).1 = some 50001 := by decide

end PortPool

end TurnRelay

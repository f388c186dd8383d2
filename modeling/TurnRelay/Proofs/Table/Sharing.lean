import TurnRelay.Proofs.Table.Session

namespace TurnRelay

/-- Tables that take their ports from one pool, each under a name. -/
structure TableGroup where
  tables : Dictionary Nat AllocationTable
  pool : PortPool
  draws : Draws

namespace TableGroup

def start (range : PortRange) : TableGroup := ⟨∅, .fresh range, .none⟩

def holdings (g : TableGroup) (table : AllocationTable) : Holdings := ⟨table, g.pool⟩

def write (g : TableGroup) (name : Nat) (h : Holdings) (draws : Draws) : TableGroup :=
  ⟨g.tables.insert name h.table, h.pool, draws⟩

def enter (g : TableGroup) (name : Nat) (table : AllocationTable) : TableGroup :=
  { g with tables := g.tables.insert name table }

def leave (g : TableGroup) (name : Nat) (table : AllocationTable) : TableGroup :=
  { g with tables := g.tables.erase name, pool := g.pool.releaseAll table.ports }

inductive Reachable (random : Randomness) (range : PortRange) : TableGroup → Prop
  | start : Reachable random range (start range)
  | enter {g : TableGroup} {name : Nat} (relayIp : IpAddress)
      (permissionLifetime channelLifetime : Nat) : Reachable random range g →
      g.tables.get? name = none →
      Reachable random range (g.enter name (.fresh relayIp permissionLifetime channelLifetime))
  | act {g : TableGroup} {name : Nat} {table : AllocationTable} (now : Nat) (act : TableAct) :
      Reachable random range g → g.tables.get? name = some table →
      Reachable random range
        (g.write name (((g.holdings table).session g.draws).act random now act).holdings
          (((g.holdings table).session g.draws).act random now act).draws)
  | remove {g : TableGroup} {name : Nat} {table : AllocationTable} (tuple : FiveTuple) :
      Reachable random range g → g.tables.get? name = some table →
      Reachable random range (g.write name ((g.holdings table).remove tuple).2 g.draws)
  | clear {g : TableGroup} {name : Nat} {table : AllocationTable} :
      Reachable random range g → g.tables.get? name = some table →
      Reachable random range (g.write name (g.holdings table).clear.2 g.draws)
  | leave {g : TableGroup} {name : Nat} {table : AllocationTable} :
      Reachable random range g → g.tables.get? name = some table →
      Reachable random range (g.leave name table)

end TableGroup

def Holdings.TakesFrom (before after : Holdings) : Prop :=
  after.pool.taken ⊆ before.pool.taken ∨ before.pool.range.isEmpty = false

namespace Holdings

theorem takesFrom_evict (h : Holdings) (chosen : FiveTuple → Allocation → Bool) :
    h.TakesFrom (h.evict chosen).2 :=
  .inl fun _ hport => (PortPool.mem_taken_releaseAll.1 hport).1

theorem TakesFrom.orderly {before after : Holdings} (h : before.TakesFrom after)
    (hconserves : before.Conserves after) (hpool : before.pool.Orderly) : after.pool.Orderly where
  nodup := hconserves.sound.nodup
  in_range port hport := by
    rw [hconserves.range_eq]
    exact (hconserves.in_range port hport).elim (hpool.in_range port) id
  nonempty htaken := by
    rw [hconserves.range_eq]
    rcases h with hsubset | hrange
    · apply hpool.nonempty
      intro hnone
      rw [hnone] at hsubset
      exact htaken (List.subset_nil.1 hsubset)
    · exact hrange

end Holdings

namespace TableSession

variable {s : TableSession} {random : Randomness} {now : Nat} {tuple : FiveTuple} {request : TableRequest}
  {result : TableAnswer × TableSession}

theorem Served.takesFrom (h : Served random s now tuple request result) :
    s.holdings.TakesFrom result.2.holdings := by
  cases h with
  | created _ hdraw =>
    have hrange := PortPool.isEmpty_of_draw hdraw
    rw [Holdings.dropExpired, Holdings.evict, PortPool.range_releaseAll] at hrange
    exact .inr hrange
  | exhausted => exact Holdings.takesFrom_evict ..
  | deleted => exact Holdings.takesFrom_evict ..
  | _ => exact .inl (List.Subset.refl _)

theorem takesFrom_act (s : TableSession) (random : Randomness) (now : Nat) (act : TableAct) :
    s.holdings.TakesFrom (s.act random now act).holdings := by
  cases act with
  | ask tuple request => exact (serve_spec random s now tuple request).takesFrom
  | reap => exact Holdings.takesFrom_evict ..

end TableSession

namespace TableGroup

variable {g : TableGroup} {name other : Nat} {table : AllocationTable} {after : Holdings} {port : UInt16}
  {random : Randomness} {range : PortRange}

structure Sound (g : TableGroup) : Prop where
  holdings : ∀ {name table}, g.tables.get? name = some table → (g.holdings table).Sound
  separate : ∀ {i j t u port}, g.tables.get? i = some t → g.tables.get? j = some u →
    port ∈ t.ports → port ∈ u.ports → i = j
  pool : g.pool.Orderly

theorem sound_start (range : PortRange) : (start range).Sound where
  holdings h := nomatch h
  separate h := nomatch h
  pool := PortPool.orderly_fresh range

theorem get?_write (g : TableGroup) (name other : Nat) (h : Holdings) (draws : Draws) :
    (g.write name h draws).tables.get? other =
      if other = name then some h.table else g.tables.get? other :=
  Dictionary.get?_insert ..

theorem Sound.foreign (h : g.Sound) (htable : g.tables.get? name = some table)
    (hconserves : (g.holdings table).Conserves after) {t : AllocationTable}
    (hother : g.tables.get? other = some t) (hne : other ≠ name) (hport : port ∈ t.ports) :
    after.Foreign port := by
  apply (hconserves.foreign_iff port).2
  exact ⟨(h.holdings hother).taken port hport, fun hmem => hne (h.separate hother htable hport hmem)⟩

theorem Sound.write (h : g.Sound) (htable : g.tables.get? name = some table)
    (hconserves : (g.holdings table).Conserves after) (htakes : (g.holdings table).TakesFrom after)
    (draws : Draws) : (g.write name after draws).Sound where
  holdings {other t} ht := by
    rw [get?_write] at ht
    split at ht
    · cases ht
      exact hconserves.sound
    · next hne =>
      exact ⟨(h.holdings ht).wellFormed,
        fun port hport => (h.foreign htable hconserves ht hne hport).1, hconserves.sound.nodup⟩
  separate {i j t u port} ht hu hi hj := by
    rw [get?_write] at ht hu
    split at ht <;> split at hu
    · next hfirst hsecond => rw [hfirst, hsecond]
    · next hne =>
      cases ht
      exact absurd hi (h.foreign htable hconserves hu hne hj).2
    · next hne _ =>
      cases hu
      exact absurd hj (h.foreign htable hconserves ht hne hi).2
    · exact h.separate ht hu hi hj
  pool := htakes.orderly hconserves h.pool

theorem Sound.enter (h : g.Sound) (hwell : table.WellFormed) (hports : table.ports = []) :
    (g.enter name table).Sound := by
  have hget (other : Nat) : (g.enter name table).tables.get? other =
      if other = name then some table else g.tables.get? other := Dictionary.get?_insert ..
  have hnone {port : UInt16} : port ∉ table.ports := hports ▸ List.not_mem_nil
  refine ⟨fun {other t} ht => ?_, fun {i j t u port} ht hu hi hj => ?_, h.pool⟩
  · rw [hget] at ht
    split at ht
    · cases ht
      exact ⟨hwell, fun port hport => absurd hport hnone, h.pool.nodup⟩
    · exact h.holdings ht
  · rw [hget] at ht hu
    split at ht
    · cases ht
      exact absurd hi hnone
    · split at hu
      · cases hu
        exact absurd hj hnone
      · exact h.separate ht hu hi hj

theorem Sound.leave (h : g.Sound) (htable : g.tables.get? name = some table) :
    (g.leave name table).Sound := by
  have hget {other : Nat} {t : AllocationTable} (ht : (g.leave name table).tables.get? other = some t) :
      other ≠ name ∧ g.tables.get? other = some t := by
    rw [TableGroup.leave, Dictionary.get?_erase] at ht
    split at ht
    · cases ht
    · next hne => exact ⟨hne, ht⟩
  have htaken {port : UInt16} : port ∈ (g.leave name table).pool.taken ↔
      port ∈ g.pool.taken ∧ port ∉ table.ports := PortPool.mem_taken_releaseAll
  refine ⟨fun ht => ?_, fun ht hu => h.separate (hget ht).2 (hget hu).2, h.pool.releaseAll table.ports⟩
  obtain ⟨hne, ht⟩ := hget ht
  refine ⟨(h.holdings ht).wellFormed, fun port hport => htaken.2 ⟨(h.holdings ht).taken port hport, ?_⟩,
    PortPool.nodup_taken_releaseAll _ h.pool.nodup⟩
  exact fun hmem => hne (h.separate ht htable hport hmem)

theorem Reachable.sound (h : Reachable random range g) : g.Sound := by
  induction h with
  | start => exact sound_start range
  | enter relayIp permissionLifetime channelLifetime _ _ ih =>
    exact ih.enter (AllocationTable.wellFormed_fresh ..) rfl
  | @act g _ table now act _ htable ih =>
    have hconserves := TableSession.conserves_act (s := (g.holdings table).session g.draws)
      (ih.holdings htable) random now act
    exact ih.write htable hconserves (TableSession.takesFrom_act _ random now act) _
  | remove tuple _ htable ih =>
    exact ih.write htable (Holdings.conserves_remove (ih.holdings htable) tuple)
      (Holdings.takesFrom_evict ..) _
  | clear _ htable ih =>
    exact ih.write htable (Holdings.conserves_clear (ih.holdings htable)) (Holdings.takesFrom_evict ..) _
  | leave _ htable ih => exact ih.leave htable

end TableGroup

end TurnRelay

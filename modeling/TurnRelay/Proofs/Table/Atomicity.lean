import TurnRelay.Proofs.Table.Expiry
import TurnRelay.Proofs.Table.Fading
import TurnRelay.Proofs.Table.Sharing

/-!
Failing operations are atomic. `refresh` and `permit` give no state with an error, so each is first written
in place, as a step that has a state in any case. An Allocate request cannot fail behind the entry that
it has dropped: the port of that entry is free then, so the search for one finds some.
-/

namespace TurnRelay

/-- The state of a step that failed is forgotten. -/
def settle {ε α σ : Type} : Except ε α × σ → Except ε (α × σ)
  | (.ok a, s) => .ok (a, s)
  | (.error e, _) => .error e

namespace AllocationTable

def permitInPlace (table : AllocationTable) (tuple : FiveTuple) (user : String) (peer : IpAddress)
    (now : Nat) : Except PacketError Bool × AllocationTable :=
  match table.owned tuple user now with
  | .error e => (.error e, table)
  | .ok a => (.ok !a.isPermitted peer now, table.put tuple (a.permit peer now))

theorem settle_permitInPlace (table : AllocationTable) (tuple : FiveTuple) (user : String)
    (peer : IpAddress) (now : Nat) :
    settle (table.permitInPlace tuple user peer now) = table.permit tuple user peer now := by
  rw [permitInPlace]
  cases howned : table.owned tuple user now with
  | error e => exact (permit_of_error howned).symm
  | ok a => exact (permit_of_owned howned).symm

end AllocationTable

namespace Holdings

def refreshInPlace (h : Holdings) (tuple : FiveTuple) (user : String) (lifetime now : Nat) :
    Except PacketError RefreshOutcome × Holdings :=
  match h.table.owned tuple user now with
  | .error e => (.error e, h)
  | .ok a =>
    if lifetime = 0 then
      match h.remove tuple with
      | (some gone, h) => (.ok (.deleted gone), h)
      | (none, h) => (.error .fatal, h)
    else (.ok .refreshed, { h with table := h.table.put tuple (a.extend (now + lifetime)) })

variable {h : Holdings} {tuple : FiveTuple} {user : String} {a : Allocation} {lifetime now : Nat}
  {random : Randomness} {draws : Draws} {e : PacketError}

theorem refreshInPlace_of_error (herror : h.table.owned tuple user now = .error e) :
    h.refreshInPlace tuple user lifetime now = (.error e, h) := by
  simp only [refreshInPlace, herror]

theorem refreshInPlace_of_owned (howned : h.table.owned tuple user now = .ok a) :
    h.refreshInPlace tuple user lifetime now =
      if lifetime = 0 then (.ok (.deleted a), (h.remove tuple).2)
      else (.ok .refreshed, { h with table := h.table.put tuple (a.extend (now + lifetime)) }) := by
  have hremoved := remove_of_stored (AllocationTable.stored_of_owned howned).1
  simp only [refreshInPlace, howned]
  rcases hremove : h.remove tuple with ⟨gone, after⟩
  rw [hremove] at hremoved
  obtain rfl : gone = some a := hremoved
  rfl

theorem settle_refreshInPlace (h : Holdings) (tuple : FiveTuple) (user : String) (lifetime now : Nat) :
    settle (h.refreshInPlace tuple user lifetime now) = h.refresh tuple user lifetime now := by
  cases howned : h.table.owned tuple user now with
  | error e => rw [refreshInPlace_of_error howned, refresh_of_error howned]; rfl
  | ok a =>
    rw [refreshInPlace_of_owned howned, refresh_of_owned howned]
    split <;> rfl

/-- An operation that fails leaves everything as it was, but for bindings that had expired. -/
structure Atomic (random : Randomness) (h : Holdings) : Prop where
  allocate : ∀ {draws tuple user lifetime now e after draws'},
    h.allocate random draws tuple user lifetime now = (.error e, after, draws') →
    after = h ∧ draws' = draws
  allocate_expired : ∀ {tuple a now} (draws user lifetime),
    h.table.allocations.get? tuple = some a → a.ends ≤ now →
    ∃ port after, h.allocate random draws tuple user lifetime now =
      (.ok (.created (h.table.relayIp.withPort port)), after)
  refresh_eq : ∀ tuple user lifetime now,
    h.refresh tuple user lifetime now = settle (h.refreshInPlace tuple user lifetime now)
  refresh : ∀ {tuple user lifetime now e}, h.refresh tuple user lifetime now = .error e →
    e ≠ .fatal ∧ h.refreshInPlace tuple user lifetime now = (.error e, h)
  permit_eq : ∀ tuple user peer now,
    h.table.permit tuple user peer now = settle (h.table.permitInPlace tuple user peer now)
  permit : ∀ {tuple user peer now e}, h.table.permit tuple user peer now = .error e →
    h.table.permitInPlace tuple user peer now = (.error e, h.table)
  bindChannel : ∀ {tuple user number peer now e table},
    h.table.bindChannel tuple user number peer now = (.error e, table) →
    table = h.table ∨ ∃ a channels, h.table.allocations.get? tuple = some a ∧
      a.channels.Faded now channels ∧ table = h.table.put tuple { a with channels := channels }

theorem isExhausted_dropExpired (hs : h.Sound) (hpool : h.pool.Orderly)
    (ha : h.table.allocations.get? tuple = some a) (hexpired : a.ends ≤ now) :
    (h.dropExpired tuple now).pool.isExhausted = false := by
  have hport : a.relay.port ∈ h.pool.taken :=
    hs.taken _ (hs.wellFormed.ports_iff.2 ⟨tuple, a, ha, rfl⟩)
  have hrange : (h.dropExpired tuple now).pool.range = h.pool.range := PortPool.range_releaseAll ..
  have htaken {port : UInt16} (hmem : port ∈ (h.dropExpired tuple now).pool.taken) :
      port ∈ h.pool.taken ∧
        port ∉ (h.evict fun t a => t = tuple && a.isExpired now).1.map (·.relay.port) :=
    PortPool.mem_taken_releaseAll.1 hmem
  have hgone : a ∈ (h.evict fun t a => t = tuple && a.isExpired now).1 :=
    mem_evict.2 ⟨tuple, ha, by simp [hexpired]⟩
  have hfree : a.relay.port ∉ (h.dropExpired tuple now).pool.taken := fun hmem =>
    (htaken hmem).2 (List.mem_map_of_mem hgone)
  -- the expired entry leaves its port behind
  refine PortPool.isExhausted_eq_false ?_ (conserves_dropExpired hs tuple now).sound.nodup
    (fun port hmem => ?_) ?_ hfree
  · exact hrange ▸ hpool.nonempty (List.ne_nil_of_mem hport)
  · exact hrange ▸ hpool.in_range port (htaken hmem).1
  · exact hrange ▸ hpool.in_range _ hport

theorem eq_none_of_exhausted (hs : h.Sound) (hpool : h.pool.Orderly) {after : Draws}
    (hnone : (h.dropExpired tuple now).table.allocations.get? tuple = none)
    (hdraw : (h.dropExpired tuple now).pool.draw random draws = (none, after)) :
    h.table.allocations.get? tuple = none := by
  rw [get?_dropExpired, if_pos rfl] at hnone
  cases ha : h.table.allocations.get? tuple with
  | none => rfl
  | some a =>
    have hexpired : a.ends ≤ now := by
      simpa [AllocationTable.find?, ha, Option.filter] using hnone
    have hexhausted := PortPool.isExhausted_of_draw hdraw
    rw [isExhausted_dropExpired hs hpool ha hexpired] at hexhausted
    cases hexhausted

theorem allocate_eq_self (hs : h.Sound) (hpool : h.pool.Orderly) {after : Holdings} {draws' : Draws}
    (herror : h.allocate random draws tuple user lifetime now = (.error e, after, draws')) :
    after = h ∧ draws' = draws := by
  have hspec := allocate_spec random h draws tuple user lifetime now
  rw [herror] at hspec
  cases hspec with
  | foreign ha huser =>
    rw [get?_dropExpired, if_pos rfl] at ha
    exact ⟨dropExpired_of_find? ha, rfl⟩
  | exhausted hnone hdraw =>
    have hstored := eq_none_of_exhausted hs hpool hnone hdraw
    refine ⟨?_, ?_⟩
    · rw [dropExpired, evict_eq_self]
      intro other b hb
      have hother : other ≠ tuple := by
        rintro rfl
        exact Option.some_ne_none b (hb.symm.trans hstored)
      simp [hother]
    · have hexhausted := PortPool.isExhausted_of_draw hdraw
      rw [PortPool.draw, if_pos hexhausted] at hdraw
      exact (Prod.mk.inj hdraw).2.symm

theorem allocate_of_expired (hs : h.Sound) (hpool : h.pool.Orderly)
    (ha : h.table.allocations.get? tuple = some a) (hexpired : a.ends ≤ now) :
    ∃ port after, h.allocate random draws tuple user lifetime now =
      (.ok (.created (h.table.relayIp.withPort port)), after) := by
  have hnone : (h.dropExpired tuple now).table.allocations.get? tuple = none := by
    rw [get?_dropExpired, if_pos rfl]
    simp [AllocationTable.find?, ha, Option.filter, hexpired]
  have hspec := allocate_spec random h draws tuple user lifetime now
  generalize h.allocate random draws tuple user lifetime now = result at hspec
  cases hspec with
  | refreshed hb => cases hnone.symm.trans hb
  | foreign hb => cases hnone.symm.trans hb
  | exhausted _ hdraw =>
    cases ha.symm.trans (eq_none_of_exhausted hs hpool hnone hdraw)
  | created => exact ⟨_, _, rfl⟩

theorem bindChannel_of_error (hs : h.Sound) {number : UInt16} {peer : TransportAddress}
    {table : AllocationTable}
    (herror : h.table.bindChannel tuple user number peer now = (.error e, table)) :
    table = h.table ∨ ∃ a channels, h.table.allocations.get? tuple = some a ∧
      a.channels.Faded now channels ∧ table = h.table.put tuple { a with channels := channels } := by
  rw [AllocationTable.bindChannel] at herror
  cases howned : h.table.owned tuple user now with
  | error e =>
    rw [howned] at herror
    exact .inl (Prod.mk.inj herror).2.symm
  | ok a =>
    have ha := (AllocationTable.stored_of_owned howned).1
    simp only [howned] at herror
    rcases a.channels.bind_cases number peer now with hbind | hbind | ⟨-, hbind⟩
    · rw [hbind] at herror
      exact .inr ⟨a, _, ha, .refl _, (Prod.mk.inj herror).2.symm⟩
    · rw [hbind] at herror
      exact .inr ⟨a, _, ha, .reap (hs.wellFormed.fits ha).paired, (Prod.mk.inj herror).2.symm⟩
    · rw [hbind] at herror
      cases (Prod.mk.inj herror).1

theorem refreshInPlace_eq_self (herror : h.refresh tuple user lifetime now = .error e) :
    e ≠ .fatal ∧ h.refreshInPlace tuple user lifetime now = (.error e, h) := by
  cases howned : h.table.owned tuple user now with
  | error reason =>
    rw [refresh_of_error howned] at herror
    cases herror
    refine ⟨?_, refreshInPlace_of_error howned⟩
    rcases AllocationTable.owned_eq_error_iff.1 howned with ⟨-, rfl⟩ | ⟨-, -, -, rfl⟩
    · exact nofun
    · exact nofun
  | ok a =>
    rw [refresh_of_owned howned] at herror
    split at herror <;> cases herror

theorem permitInPlace_eq_self {table : AllocationTable} {peer : IpAddress}
    (herror : table.permit tuple user peer now = .error e) :
    table.permitInPlace tuple user peer now = (.error e, table) := by
  rw [AllocationTable.permitInPlace]
  cases howned : table.owned tuple user now with
  | error reason =>
    rw [AllocationTable.permit_of_error howned] at herror
    cases herror
    rfl
  | ok a =>
    rw [AllocationTable.permit_of_owned howned] at herror
    cases herror

theorem Sound.atomic (hs : h.Sound) (hpool : h.pool.Orderly) (random : Randomness) :
    h.Atomic random where
  allocate := allocate_eq_self hs hpool
  allocate_expired _ _ _ := allocate_of_expired hs hpool
  refresh_eq tuple user lifetime now := (settle_refreshInPlace h tuple user lifetime now).symm
  refresh := refreshInPlace_eq_self
  permit_eq tuple user peer now := (h.table.settle_permitInPlace tuple user peer now).symm
  permit := permitInPlace_eq_self
  bindChannel := bindChannel_of_error hs

end Holdings

theorem TableGroup.Reachable.failures_atomic {random : Randomness} {range : PortRange} {g : TableGroup}
    {name : Nat} {table : AllocationTable} (h : Reachable random range g)
    (htable : g.tables.get? name = some table) (other : Randomness) :
    (g.holdings table).Atomic other :=
  (h.sound.holdings htable).atomic h.sound.pool other

namespace TableSample

def crowd : TableGroup :=
  let entered := ((TableGroup.start ⟨50000, 50000⟩).enter 0 (.fresh (.v4 0xC0000201) 5 8)).enter 1
    (.fresh (.v4 0xC0000201) 5 8)
  let asked := ((entered.holdings (.fresh (.v4 0xC0000201) 5 8)).session entered.draws).act random 0
    (.ask alice (.allocate "alice" 10))
  entered.write 0 asked.holdings asked.draws

def crowded (name : Nat) : AllocationTable :=
  (crowd.tables.get? name).getD (.fresh (.v4 0xC0000201) 5 8)

theorem reachable_crowd : TableGroup.Reachable random ⟨50000, 50000⟩ crowd :=
  .act 0 (.ask alice (.allocate "alice" 10)) (.enter _ 5 8 (.enter _ 5 8 .start rfl) rfl) rfl

end TableSample

open TableSample in
theorem failures_atomic_sample :
    TableGroup.Reachable random ⟨50000, 50000⟩ crowd ∧ crowd.pool.isExhausted = true ∧
      (crowd.tables.get? 0 = some (crowded 0) ∧ ∃ port after,
        (crowd.holdings (crowded 0)).allocate otherRandom .none alice "alice" 20 30 =
          (.ok (.created ((crowded 0).relayIp.withPort port)), after)) ∧
      crowd.tables.get? 1 = some (crowded 1) ∧
        (crowd.holdings (crowded 1)).allocate otherRandom .none bob "bob" 20 30 =
          (.error .invalidInput, crowd.holdings (crowded 1), .none) := by
  have hfirst : crowd.tables.get? 0 = some (crowded 0) := rfl
  have hsecond : crowd.tables.get? 1 = some (crowded 1) := rfl
  refine ⟨reachable_crowd, by decide, ⟨hfirst, ?_⟩, hsecond, ?_⟩
  · have hatomic := reachable_crowd.failures_atomic hfirst otherRandom
    obtain ⟨a, ha, hexpired⟩ : ∃ a, (crowded 0).allocations.get? alice = some a ∧ a.ends ≤ 30 :=
      ⟨_, rfl, by decide⟩
    exact hatomic.allocate_expired .none "alice" 20 ha hexpired
  · have hatomic := reachable_crowd.failures_atomic hsecond otherRandom
    obtain ⟨⟨after, draws⟩, hresult⟩ : ∃ after,
        (crowd.holdings (crowded 1)).allocate otherRandom .none bob "bob" 20 30 =
          (.error .invalidInput, after) := ⟨_, rfl⟩
    obtain ⟨rfl, rfl⟩ := hatomic.allocate hresult
    exact hresult

end TurnRelay

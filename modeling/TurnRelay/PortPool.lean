import TurnRelay.Address

namespace TurnRelay

/-- What the `n`-th draw of each kind gives. -/
structure Randomness where
  offset : Nat → Nat
  transaction : Nat → TransactionId
  nonceLetter : Nat → Char

structure Draws where
  offsets : Nat
  transactions : Nat
  nonceLetters : Nat
  deriving DecidableEq

def Draws.none : Draws := ⟨0, 0, 0⟩

def nonceLength : Nat := 16

def Randomness.nonce (random : Randomness) (draws : Draws) : String × Draws :=
  (String.ofList ((List.range nonceLength).map fun i => random.nonceLetter (draws.nonceLetters + i)),
    { draws with nonceLetters := draws.nonceLetters + nonceLength })

def Randomness.nextTransaction (random : Randomness) (draws : Draws) : TransactionId × Draws :=
  (random.transaction draws.transactions, { draws with transactions := draws.transactions + 1 })

structure PortRange where
  start : UInt16
  stop : UInt16
  deriving DecidableEq

namespace PortRange

def standard : PortRange := ⟨49152, 65535⟩

/-- A range that starts at port 0 counts as empty. -/
def isEmpty (range : PortRange) : Bool := range.start = 0 || range.stop < range.start

def size (range : PortRange) : Nat :=
  if range.isEmpty then 0 else range.stop.toNat - range.start.toNat + 1

def contains (range : PortRange) (port : UInt16) : Bool := range.start ≤ port && port ≤ range.stop

/-- All ports of the range, from the one at `offset` upwards and around. -/
def rotation (range : PortRange) (offset : Nat) : List UInt16 :=
  (List.range range.size).map fun i => .ofNat (range.start.toNat + (offset + i) % range.size)

end PortRange

structure PortPool where
  range : PortRange
  taken : List UInt16
  deriving DecidableEq

namespace PortPool

def fresh (range : PortRange) : PortPool := ⟨range, []⟩

def inUse (pool : PortPool) : Nat := pool.taken.length

def available (pool : PortPool) : Nat := pool.range.size - pool.inUse

def isExhausted (pool : PortPool) : Bool := pool.range.size ≤ pool.inUse

def take (pool : PortPool) (port : UInt16) : PortPool := { pool with taken := pool.taken ++ [port] }

def acquire (pool : PortPool) (offset : Nat) : Option (UInt16 × PortPool) :=
  if pool.isExhausted then none
  else
    ((pool.range.rotation offset).find? (· ∉ pool.taken)).map fun port => (port, pool.take port)

/-- Acquires a port from a random place on. An exhausted pool draws no number. -/
def draw (random : Randomness) (pool : PortPool) (draws : Draws) : Option (UInt16 × PortPool) × Draws :=
  if pool.isExhausted then (none, draws)
  else (pool.acquire (random.offset draws.offsets), { draws with offsets := draws.offsets + 1 })

def release (pool : PortPool) (port : UInt16) : PortPool :=
  { pool with taken := pool.taken.filter (· ≠ port) }

@[simp] theorem taken_take (pool : PortPool) (port : UInt16) :
    (pool.take port).taken = pool.taken ++ [port] := rfl

@[simp] theorem mem_taken_release {pool : PortPool} {port other : UInt16} :
    other ∈ (pool.release port).taken ↔ other ∈ pool.taken ∧ other ≠ port := by
  simp [release]

theorem nodup_taken_release {pool : PortPool} (port : UInt16) (h : pool.taken.Nodup) :
    (pool.release port).taken.Nodup :=
  h.sublist List.filter_sublist

def releaseAll (pool : PortPool) (ports : List UInt16) : PortPool := ports.foldl release pool

@[simp] theorem mem_taken_releaseAll {pool : PortPool} {ports : List UInt16} {port : UInt16} :
    port ∈ (pool.releaseAll ports).taken ↔ port ∈ pool.taken ∧ port ∉ ports := by
  induction ports generalizing pool with
  | nil => simp [releaseAll]
  | cons p ports ih =>
    simp only [releaseAll, List.foldl_cons] at ih ⊢
    rw [ih, mem_taken_release]
    simp [and_assoc]

end PortPool

end TurnRelay

import TurnRelay.Proofs.Table.Sound

namespace TurnRelay

def Drops {α : Type} (expired : α → Prop) (before after : Option α) : Prop :=
  after = before ∨ after = none ∧ ∃ x, before = some x ∧ expired x

theorem Drops.filter {α : Type} {expired : α → Prop} {keep : α → Bool} {before : Option α}
    (h : ∀ x, before = some x → keep x = false → expired x) :
    Drops expired before (before.filter keep) := by
  cases before with
  | none => exact .inl rfl
  | some x =>
    cases hkeep : keep x with
    | true => exact .inl (by simp [Option.filter, hkeep])
    | false => exact .inr ⟨by simp [Option.filter, hkeep], x, rfl, h x rfl hkeep⟩

structure PermissionTable.Faded (now : Nat) (before after : PermissionTable) : Prop where
  lifetime_eq : after.lifetime = before.lifetime
  entries : ∀ ip, Drops (· ≤ now) (before.get? ip) (after.get? ip)

structure ChannelTable.Faded (now : Nat) (before after : ChannelTable) : Prop where
  lifetime_eq : after.lifetime = before.lifetime
  bindings : ∀ number, Drops (·.ends ≤ now) (before.get? number) (after.get? number)
  numbers : ∀ peer, Drops (fun number => ∃ binding, before.get? number = some binding ∧
    binding.peer = peer ∧ binding.ends ≤ now) (before.numbers.get? peer) (after.numbers.get? peer)

structure Allocation.Faded (now : Nat) (before after : Allocation) : Prop where
  tuple_eq : after.tuple = before.tuple
  username_eq : after.username = before.username
  relay_eq : after.relay = before.relay
  created_eq : after.created = before.created
  ends_eq : after.ends = before.ends
  permissions : before.permissions.Faded now after.permissions
  channels : before.channels.Faded now after.channels

/-- Nothing happens to an entry but that what has expired by `now` may go. -/
inductive Faded (now : Nat) : Option Allocation → Option Allocation → Prop
  | absent : Faded now none none
  | expired {a : Allocation} : a.ends ≤ now → Faded now (some a) none
  | stays {a b : Allocation} : a.Faded now b → Faded now (some a) (some b)

variable {now : Nat}

theorem PermissionTable.Faded.refl (table : PermissionTable) : table.Faded now table :=
  ⟨rfl, fun _ => .inl rfl⟩

theorem PermissionTable.Faded.reap (table : PermissionTable) : table.Faded now (table.reap now) := by
  refine ⟨rfl, fun ip => ?_⟩
  rw [get?_reap]
  apply Drops.filter
  intro ends _ hends
  exact Nat.le_of_not_lt (of_decide_eq_false hends)

theorem ChannelTable.Faded.refl (table : ChannelTable) : table.Faded now table :=
  ⟨rfl, fun _ => .inl rfl, fun _ => .inl rfl⟩

theorem ChannelTable.Faded.reap {table : ChannelTable} (h : table.Paired) :
    table.Faded now (table.reap now) := by
  refine ⟨rfl, fun number => ?_, fun peer => ?_⟩
  · rw [get?_reap]
    apply Drops.filter
    intro binding _ hexpired
    simpa [ChannelBinding.isExpired] using hexpired
  · have hnumbers : (table.reap now).numbers.get? peer =
        (table.numbers.get? peer).filter fun _ => peer ∉ table.expiredPeers now :=
      Dictionary.get?_filter ..
    rw [hnumbers]
    apply Drops.filter
    intro number hnumber hgone
    have hpeer : peer ∈ table.expiredPeers now := by simpa using hgone
    obtain ⟨other, binding, hbinding, hexpired, hsame⟩ := mem_expiredPeers.1 hpeer
    -- the expired binding is that of `number`, since a peer has one number only
    have hother := (h peer other).2 ⟨binding, hbinding, hsame⟩
    obtain rfl : number = other := Option.some.inj (hnumber.symm.trans hother)
    exact ⟨binding, hbinding, hsame, by simpa [ChannelBinding.isExpired] using hexpired⟩

theorem Allocation.Faded.refl (a : Allocation) : a.Faded now a :=
  ⟨rfl, rfl, rfl, rfl, rfl, .refl _, .refl _⟩

theorem Faded.refl (entry : Option Allocation) : Faded now entry entry := by
  cases entry with
  | none => exact .absent
  | some a => exact .stays (.refl a)

theorem Faded.kept {entry : Option Allocation} (h : ∀ a, entry = some a → a.channels.Paired) :
    Faded now entry (Holdings.kept now entry) := by
  cases entry with
  | none => exact .absent
  | some a =>
    cases hexpired : a.isExpired now with
    | true =>
      have hgone : Holdings.kept now (some a) = none := by
        simp [Holdings.kept, Option.filter, hexpired]
      rw [hgone]
      exact .expired (Allocation.isExpired_eq_true_iff.1 hexpired)
    | false =>
      have hsweep : Holdings.kept now (some a) = some (a.sweep now) := by
        simp [Holdings.kept, Option.filter, hexpired]
      rw [hsweep]
      exact .stays ⟨rfl, rfl, rfl, rfl, rfl, .reap _, .reap (h a rfl)⟩

end TurnRelay

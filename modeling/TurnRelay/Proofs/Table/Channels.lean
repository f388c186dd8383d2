import TurnRelay.Proofs.Table.View

namespace TurnRelay.ChannelTable

variable {table : ChannelTable} {lifetime : Nat}

inductive Reachable (lifetime : Nat) : ChannelTable → Prop
  | fresh : Reachable lifetime (.fresh lifetime)
  | bind {table : ChannelTable} (number : UInt16) (peer : TransportAddress) (now : Nat) :
      Reachable lifetime table → Reachable lifetime (table.bind number peer now).2
  | reap {table : ChannelTable} (now : Nat) :
      Reachable lifetime table → Reachable lifetime (table.reap now)

def Numbered (table : ChannelTable) : Prop :=
  ∀ number binding, table.get? number = some binding → isChannelNumber number = true

theorem numbered_fresh (lifetime : Nat) : (fresh lifetime).Numbered := by
  intro number binding h
  simp at h

theorem Numbered.reap (h : table.Numbered) (now : Nat) : (table.reap now).Numbered := by
  intro number binding hbinding
  rw [get?_reap, Option.filter_eq_some_iff] at hbinding
  exact h number binding hbinding.1

theorem Numbered.store (h : table.Numbered) {number : UInt16} (hnumber : isChannelNumber number = true)
    (peer : TransportAddress) (now : Nat) : (table.store number peer now).Numbered := by
  intro other binding hbinding
  rw [get?_store] at hbinding
  split at hbinding
  · next hother => rw [hother, hnumber]
  · exact h other binding hbinding

theorem Numbered.bind (h : table.Numbered) (number : UInt16) (peer : TransportAddress) (now : Nat) :
    (table.bind number peer now).2.Numbered := by
  unfold ChannelTable.bind
  by_cases hnumber : isChannelNumber number = true
  · simp only [hnumber, if_true]
    split
    · exact (h.reap now).store hnumber peer now
    · exact h.reap now
  · simpa only [if_neg hnumber] using h

namespace Reachable

theorem paired (h : Reachable lifetime table) : table.Paired := by
  induction h with
  | fresh => exact paired_fresh lifetime
  | bind number peer now _ ih => exact ih.bind number peer now
  | reap now _ ih => exact ih.reap now

theorem numbered (h : Reachable lifetime table) : table.Numbered := by
  induction h with
  | fresh => exact numbered_fresh lifetime
  | bind number peer now _ ih => exact ih.bind number peer now
  | reap now _ ih => exact ih.reap now

theorem lifetime_eq (h : Reachable lifetime table) : table.lifetime = lifetime := by
  induction h with
  | fresh => rfl
  | bind number peer now _ ih => rw [lifetime_bind, ih]
  | reap now _ ih => exact ih

end Reachable

theorem peer?_eq_some_iff {number : UInt16} {peer : TransportAddress} {now : Nat} :
    table.peer? number now = some peer ↔
      ∃ binding, table.view now number = some binding ∧ binding.peer = peer :=
  Option.map_eq_some_iff

theorem view_eq_some_iff {number : UInt16} {binding : ChannelBinding} {now : Nat} :
    table.view now number = some binding ↔ table.get? number = some binding ∧ now < binding.ends := by
  simp [view, Option.filter_eq_some_iff, ChannelBinding.isExpired]

theorem Paired.peer?_iff (h : table.Paired) {number : UInt16} {peer : TransportAddress} {now : Nat} :
    table.peer? number now = some peer ↔ table.number? peer now = some number :=
  peer?_eq_some_iff.trans (number?_eq_some_iff h).symm

theorem number?_congr {first second : ChannelTable} (h : first.Paired) (h' : second.Paired) {now : Nat}
    (hview : first.view now = second.view now) (peer : TransportAddress) :
    first.number? peer now = second.number? peer now := by
  apply Option.ext
  intro number
  rw [number?_eq_some_iff h, number?_eq_some_iff h', hview]

theorem Reachable.isChannelNumber_of_number? (h : Reachable lifetime table) {number : UInt16}
    {peer : TransportAddress} {now : Nat} (hnumber : table.number? peer now = some number) :
    isChannelNumber number = true := by
  obtain ⟨binding, hbinding, -⟩ := (number?_eq_some_iff h.paired).1 hnumber
  exact h.numbered number binding (view_eq_some_iff.1 hbinding).1

def Free (table : ChannelTable) (number : UInt16) (peer : TransportAddress) (now : Nat) : Prop :=
  ∀ other binding, table.get? other = some binding → now < binding.ends →
    (other = number ↔ binding.peer = peer)

variable {number : UInt16} {peer : TransportAddress} {now : Nat}

theorem admits_reap_iff (h : table.Paired) :
    (table.reap now).admits number peer = true ↔ table.Free number peer now := by
  have hbinding : ∀ other binding, (table.reap now).bindings.get? other = some binding ↔
      table.get? other = some binding ∧ now < binding.ends := fun other binding =>
    (iff_of_eq (congrArg (· = some binding) (get?_reap table other now))).trans view_eq_some_iff
  simp only [admits, Bool.and_eq_true, Option.all_eq_true, decide_eq_true_eq, h.reap now peer,
    hbinding, Free]
  constructor
  · rintro ⟨hpeer, hnumber⟩ other binding hstored hlive
    constructor
    · rintro rfl
      exact hpeer binding ⟨hstored, hlive⟩
    · exact fun hsame => hnumber other ⟨binding, ⟨hstored, hlive⟩, hsame⟩
  · intro hfree
    constructor
    · exact fun binding hstored => (hfree number binding hstored.1 hstored.2).1 rfl
    · rintro other ⟨binding, hstored, hsame⟩
      exact (hfree other binding hstored.1 hstored.2).2 hsame

theorem view_store {other : UInt16} (hother : other ≠ number) :
    (table.store number peer now).view now other = table.view now other := by
  rw [view, get?_store, if_neg hother, view]

theorem bind_spec (h : table.Paired) (number : UInt16) (peer : TransportAddress) (now : Nat) :
    (isChannelNumber number = true ∧ table.Free number peer now ∧
      (table.bind number peer now).1 = .ok (table.view now number).isNone ∧
      (table.bind number peer now).2 = (table.reap now).store number peer now) ∨
    (¬(isChannelNumber number = true ∧ table.Free number peer now) ∧
      (table.bind number peer now).1 = .error .invalidInput ∧
      (table.bind number peer now).2.view now = table.view now) := by
  have hnew : (!(table.reap now).bindings.contains number) = (table.view now number).isNone := by
    rw [Dictionary.contains, Option.not_isSome]
    exact congrArg Option.isNone (get?_reap table number now)
  unfold ChannelTable.bind
  by_cases hnumber : isChannelNumber number = true
  · by_cases hadmits : (table.reap now).admits number peer = true
    · left
      simp only [hnumber, hadmits, if_true, hnew, true_and, and_true]
      exact (admits_reap_iff h).1 hadmits
    · right
      simp only [hnumber, hadmits, if_true, Bool.false_eq_true, if_false, true_and, view_reap, and_true]
      exact mt (admits_reap_iff h).2 hadmits
  · right
    simp [hnumber]

theorem number?_store (h : table.Paired) (hafter : (table.store number peer now).Paired)
    (hsame : ∀ binding, table.get? number = some binding → binding.peer = peer)
    {other : TransportAddress} (hother : other ≠ peer) :
    (table.store number peer now).number? other now = table.number? other now := by
  apply Option.ext
  intro third
  rw [number?_eq_some_iff hafter, number?_eq_some_iff h, view, get?_store]
  by_cases hthird : third = number
  · -- neither the binding stored nor the one it takes the place of belongs to the other peer
    subst hthird
    rw [if_pos rfl]
    constructor
    · rintro ⟨binding, hbinding, rfl⟩
      obtain rfl := Option.some.inj (Option.filter_eq_some_iff.1 hbinding).1
      exact absurd rfl hother
    · rintro ⟨binding, hbinding, rfl⟩
      exact absurd (hsame binding (view_eq_some_iff.1 hbinding).1) hother
  · rw [if_neg hthird]
    rfl

/-- Numbers and peers are one to one, and a bind fails exactly when it would break this. -/
structure Bijective (table : ChannelTable) (lifetime : Nat) : Prop where
  inverse : ∀ number peer now,
    table.peer? number now = some peer ↔ table.number? peer now = some number
  in_range : ∀ number binding, table.bindings.get? number = some binding →
    0x4000 ≤ number ∧ number ≤ 0x7FFF
  indices : ∀ peer number, table.numbers.get? peer = some number ↔
    ∃ binding, table.bindings.get? number = some binding ∧ binding.peer = peer
  bind_ok_iff : ∀ number peer now, (∃ new, (table.bind number peer now).1 = .ok new) ↔
    (0x4000 ≤ number ∧ number ≤ 0x7FFF) ∧ table.Free number peer now
  bind_ok : ∀ number peer now new, (table.bind number peer now).1 = .ok new →
    (new = true ↔ ∀ binding, table.get? number = some binding → binding.ends ≤ now) ∧
    (table.bind number peer now).2.get? number = some ⟨peer, now + lifetime⟩
  bind_others : ∀ number peer now other, other ≠ number →
    (table.bind number peer now).2.view now other = table.view now other
  bind_other_peers : ∀ number peer now other, other ≠ peer →
    (table.bind number peer now).2.number? other now = table.number? other now
  bind_error : ∀ number peer now e, (table.bind number peer now).1 = .error e →
    e = .invalidInput ∧ (table.bind number peer now).2.view now = table.view now ∧
      ∀ other, (table.bind number peer now).2.number? other now = table.number? other now

theorem view_eq_none_iff : table.view now number = none ↔
    ∀ binding, table.get? number = some binding → binding.ends ≤ now := by
  simp [view, Option.filter_eq_none_iff, ChannelBinding.isExpired]

namespace Reachable

theorem bind_others (h : Reachable lifetime table) (number : UInt16) (peer : TransportAddress)
    (now : Nat) {other : UInt16} (hother : other ≠ number) :
    (table.bind number peer now).2.view now other = table.view now other := by
  rcases bind_spec h.paired number peer now with ⟨-, -, -, hstored⟩ | ⟨-, -, hsame⟩
  · rw [hstored, view_store hother, view_reap]
  · rw [hsame]

theorem bind_other_peers (h : Reachable lifetime table) (number : UInt16) (peer : TransportAddress)
    (now : Nat) {other : TransportAddress} (hother : other ≠ peer) :
    (table.bind number peer now).2.number? other now = table.number? other now := by
  have hpaired := (h.bind number peer now).paired
  rcases bind_spec h.paired number peer now with ⟨-, hfree, -, hstored⟩ | ⟨-, -, hsame⟩
  · rw [hstored] at hpaired ⊢
    rw [number?_store (h.reap now).paired hpaired ?_ hother]
    · exact congrFun (number?_reap h.paired now) other
    · intro binding hbinding
      obtain ⟨hstored, hlive⟩ := view_eq_some_iff.1 ((get?_reap ..).symm.trans hbinding)
      exact (hfree number binding hstored hlive).1 rfl
  · exact number?_congr hpaired h.paired hsame other

theorem bijective (h : Reachable lifetime table) : table.Bijective lifetime where
  inverse number peer now := h.paired.peer?_iff
  in_range number binding hbinding := isChannelNumber_iff.1 (h.numbered number binding hbinding)
  indices := h.paired
  bind_ok_iff number peer now := by
    rw [← isChannelNumber_iff]
    rcases bind_spec h.paired number peer now with ⟨hnumber, hfree, hok, -⟩ | ⟨hnot, herror, -⟩
    · simp [hok, hnumber, hfree]
    · simp only [herror, reduceCtorEq, exists_false, false_iff]
      exact hnot
  bind_ok number peer now new hnew := by
    rcases bind_spec h.paired number peer now with ⟨-, -, hok, hstored⟩ | ⟨-, herror, -⟩
    · obtain rfl : (table.view now number).isNone = new := Except.ok.inj (hok.symm.trans hnew)
      rw [← view_eq_none_iff, Option.isNone_iff_eq_none, hstored, get?_store, if_pos rfl]
      exact ⟨Iff.rfl, by rw [← h.lifetime_eq]; rfl⟩
    · cases herror.symm.trans hnew
  bind_others number peer now other hother := h.bind_others number peer now hother
  bind_other_peers number peer now other hother := h.bind_other_peers number peer now hother
  bind_error number peer now e he := by
    rcases bind_spec h.paired number peer now with ⟨-, -, hok, -⟩ | ⟨-, herror, hsame⟩
    · cases hok.symm.trans he
    · exact ⟨(Except.error.inj (herror.symm.trans he)).symm, hsame,
        number?_congr (h.bind number peer now).paired h.paired hsame⟩

end Reachable

/-- A number that a second peer took over from an expired binding, reaped with the clock set back. -/
def takenOver : ChannelTable :=
  let first := ((fresh 600).bind 0x4000 (.v4 0xC6336407 40000) 100).2
  let second := (first.bind 0x4000 (.v4 0xC6336408 40000) 700).2
  second.reap 5

theorem reachable_takenOver : Reachable 600 takenOver :=
  .reap 5 (.bind 0x4000 (.v4 0xC6336408 40000) 700 (.bind 0x4000 (.v4 0xC6336407 40000) 100 .fresh))

theorem bijective_takenOver :
    Reachable 600 takenOver ∧ takenOver.peer? 0x4000 1000 = some (.v4 0xC6336408 40000) ∧
      takenOver.Bijective 600 :=
  ⟨reachable_takenOver, by decide +kernel, reachable_takenOver.bijective⟩

end TurnRelay.ChannelTable

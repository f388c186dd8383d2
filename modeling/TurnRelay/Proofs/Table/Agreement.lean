import TurnRelay.Proofs.Table.Session
import TurnRelay.Proofs.Table.Shown

namespace TurnRelay

def TableRequest.occupies : TableRequest → TableAnswer → Bool → Bool
  | .allocate .., _, _ => true
  | _, .deleted _, _ => false
  | _, _, before => before

theorem TableRequest.occupies_of_imp (request : TableRequest) (answer : TableAnswer)
    {before other : Bool} (h : before = true → other = true) :
    request.occupies answer before = true → request.occupies answer other = true := by
  cases request <;> cases answer <;> first | exact id | exact h

namespace TableSession

variable {s next : TableSession} {tuple : FiveTuple} {a b : Allocation} {user : String}
  {random : Randomness} {now : Nat} {entry : Option Lease} {lease : Lease} {answer : TableAnswer}
  {request : TableRequest}

structure Agrees (now : Nat) (tuple : FiveTuple) (request : TableRequest) (s : TableSession)
    (expected : TableAnswer × Option Lease) (actual : TableAnswer × TableSession) : Prop where
  answer : actual.1 = expected.1
  shown : Lease.Shown now expected.2 (actual.2.get? tuple)
  occupied : (actual.2.get? tuple).isSome = request.occupies actual.1 (s.get? tuple).isSome

theorem tenancy_eq (hs : s.holdings.Sound) (hi : s.Informed) (ha : s.get? tuple = some a)
    (h : lease.Tells now a) : s.tenancy a = lease.tenancy := by
  have hgiven := hi tuple a ha
  rw [← (hs.wellFormed.fits ha).tuple_eq] at hgiven
  simp [tenancy, Lease.tenancy, hgiven, h.user, h.created, h.ends]

theorem findGiven?_eq (hs : s.holdings.Sound) (hi : s.Informed) (tuple : FiveTuple) (now : Nat) :
    s.findGiven? tuple now = s.holdings.table.find? tuple now := by
  apply Option.ext
  intro a
  simp only [findGiven?, Option.bind_eq_bind, Option.bind_eq_some_iff, Option.filter_eq_some_iff,
    hs.wellFormed.findByPort?_eq_some_iff, decide_eq_true_eq]
  constructor
  · rintro ⟨relay, -, ⟨hfind, -⟩, rfl⟩
    exact hfind
  · intro hfind
    have ha := get?_of_find? hfind
    obtain rfl := (hs.wellFormed.fits ha).tuple_eq
    exact ⟨a.relay, hi _ a ha, ⟨hfind, rfl⟩, rfl⟩

namespace Agrees

theorem entered (hb : next.get? tuple = some b) (h : (lease.remains now).Tells now b)
    (hoccupies : request.occupies answer (s.get? tuple).isSome = true) :
    Agrees now tuple request s (answer, some lease) (answer, next) := by
  refine ⟨rfl, ?_, ?_⟩
  · rw [hb]
    exact .of_tells h
  · rw [hb]
    exact hoccupies.symm

theorem put (ha : s.get? tuple = some a) (h : (lease.remains now).Tells now b)
    (hoccupies : request.occupies answer true = true) :
    Agrees now tuple request s (answer, some lease) (answer, s.put tuple b) :=
  entered ((get?_put ..).trans (if_pos rfl)) h (by rw [ha]; exact hoccupies)

end Agrees

section live

variable (h : Option.Rel (Lease.Tells now) entry (s.holdings.table.find? tuple now))
include h

theorem shown_of_find? : Lease.Shown now entry (s.get? tuple) := by
  have hshown := Lease.Shown.of_rel h (Nat.le_refl now)
  rw [Lease.Shown, AllocationTable.find?, Option.filter_filter_self] at hshown
  exact hshown

theorem agrees_same
    (hoccupies : request.occupies answer (s.get? tuple).isSome = (s.get? tuple).isSome) :
    Agrees now tuple request s (answer, entry) (answer, s) :=
  ⟨rfl, shown_of_find? h, hoccupies.symm⟩

theorem told_of_find? (hfind : s.holdings.table.find? tuple now = some a) :
    ∃ lease, entry = some lease ∧ lease.Tells now a := by
  rw [hfind] at h
  cases h with
  | some htells => exact ⟨_, rfl, htells⟩

theorem told_of_owned (howned : s.holdings.table.owned tuple user now = .ok a) :
    ∃ lease, entry = some lease ∧ lease.Tells now a ∧ Lease.owned user entry = .ok lease := by
  obtain ⟨hfind, huser⟩ := AllocationTable.owned_eq_ok_iff.1 howned
  obtain ⟨lease, rfl, htells⟩ := told_of_find? h hfind
  exact ⟨lease, rfl, htells, if_pos (htells.user.trans huser)⟩

theorem untold_of_find? (hfind : s.holdings.table.find? tuple now = none) : entry = none := by
  rw [hfind] at h
  cases h
  rfl

theorem owned_error {e : PacketError} (howned : s.holdings.table.owned tuple user now = .error e) :
    Lease.owned user entry = .error e := by
  obtain ⟨hfind, rfl⟩ | ⟨a, hfind, huser, rfl⟩ := AllocationTable.owned_eq_error_iff.1 howned
  · rw [untold_of_find? h hfind]
    rfl
  · obtain ⟨lease, rfl, htells⟩ := told_of_find? h hfind
    exact if_neg fun hsame => huser (htells.user.symm.trans hsame)

theorem map_tenancy (hs : s.holdings.Sound) (hi : s.Informed) :
    (s.holdings.table.find? tuple now).map s.tenancy = entry.map Lease.tenancy := by
  cases hfind : s.holdings.table.find? tuple now with
  | none =>
    rw [untold_of_find? h hfind]
    rfl
  | some a =>
    obtain ⟨lease, rfl, htells⟩ := told_of_find? h hfind
    exact congrArg some (tenancy_eq hs hi (get?_of_find? hfind) htells)

theorem isPermitted_eq (peer : IpAddress) :
    s.holdings.table.isPermitted tuple peer now = entry.any (·.permissions.contains peer) := by
  rw [AllocationTable.isPermitted]
  cases hfind : s.holdings.table.find? tuple now with
  | none =>
    rw [untold_of_find? h hfind]
    rfl
  | some a =>
    obtain ⟨lease, rfl, htells⟩ := told_of_find? h hfind
    rw [Option.any_some, Option.any_some, htells.contains_permissions]

theorem peerOf?_eq (number : UInt16) :
    s.holdings.table.peerOf? tuple number now =
      entry.bind fun lease => (lease.channels.get? number).map (·.peer) := by
  rw [AllocationTable.peerOf?]
  cases hfind : s.holdings.table.find? tuple now with
  | none =>
    rw [untold_of_find? h hfind]
    rfl
  | some a =>
    obtain ⟨lease, rfl, htells⟩ := told_of_find? h hfind
    rw [Option.bind_some, htells.channels]
    rfl

theorem Served.agrees {result : TableAnswer × TableSession}
    (hserved : Served random s now tuple request result) (hs : s.holdings.Sound) (hi : s.Informed)
    (hroom : s.roomy now tuple request = true) :
    Agrees now tuple request s (Lease.serve s.holdings.table.terms now entry request) result := by
  cases hserved with
  | @extended user lifetime a hfind huser =>
    obtain ⟨lease, rfl, htells⟩ := told_of_find? h hfind
    have ha := get?_of_find? hfind
    simp only [Lease.serve, htells.user, huser, if_true, hi tuple a ha, decide_true]
    exact .put ha (htells.extend _) rfl
  | occupied hfind huser =>
    obtain ⟨lease, rfl, htells⟩ := told_of_find? h hfind
    simp only [Lease.serve, htells.user, huser, if_false]
    exact agrees_same h (by rw [get?_of_find? hfind]; rfl)
  | exhausted hnone hdraw =>
    have hexhausted := PortPool.isExhausted_of_draw hdraw
    simp [roomy, hnone, hexhausted] at hroom
  | created hnone hdraw =>
    obtain rfl := untold_of_find? h hnone
    refine .entered ((Holdings.get?_grant ..).trans (if_pos rfl)) ?_ rfl
    exact Lease.tells_fresh ..
  | disowned howner howned =>
    rw [Lease.serve_of_owned_error howner (owned_error h howned)]
    refine agrees_same h ?_
    cases request <;> first | rfl | cases howner
  | renewed hlifetime howned =>
    obtain ⟨lease, rfl, htells, hlease⟩ := told_of_owned h howned
    simp only [Lease.serve, hlease, hlifetime, if_false]
    exact .put (get?_of_owned howned) (htells.extend _) rfl
  | deleted howned =>
    obtain ⟨lease, rfl, htells, hlease⟩ := told_of_owned h howned
    have hgone : TableSession.get? { s with holdings := (s.holdings.remove tuple).2 } tuple = none := by
      rw [get?, Holdings.get?_remove, if_pos rfl]
    simp only [Lease.serve, hlease, if_true, tenancy_eq hs hi (get?_of_owned howned) htells]
    refine ⟨rfl, ?_, ?_⟩
    · rw [hgone]
      exact .none
    · rw [hgone]
      rfl
  | permitted howned =>
    obtain ⟨lease, rfl, htells, hlease⟩ := told_of_owned h howned
    have ha := get?_of_owned howned
    simp only [Lease.serve, hlease, htells.contains_permissions]
    exact .put ha (htells.permit (hs.wellFormed.fits ha) _) rfl
  | @bound user number peer a howned hnumber hadmits =>
    obtain ⟨lease, rfl, htells, hlease⟩ := told_of_owned h howned
    have ha := get?_of_owned howned
    have hfits := hs.wellFormed.fits ha
    have hcontains : lease.channels.contains number = (a.channels.reap now).bindings.contains number :=
      congrArg Option.isSome (htells.get?_channels number)
    simp only [Lease.serve, hlease, hnumber, htells.admits hfits.paired, hadmits, hcontains, Bool.and_self,
      if_true]
    exact .put ha (htells.bind hfits number peer) rfl
  | unbound howned hrefused hchannels =>
    obtain ⟨lease, rfl, htells, hlease⟩ := told_of_owned h howned
    have ha := get?_of_owned howned
    simp only [Lease.serve, hlease, htells.admits (hs.wellFormed.fits ha).paired, hrefused]
    -- the bindings that a refusal drops have ended, and the lease does not tell them
    rcases hchannels with rfl | rfl
    · exact .put ha (htells.age (Nat.le_refl now)) rfl
    · exact .put ha (htells.reapChannels.age (Nat.le_refl now)) rfl
  | touched hfind hpermitted =>
    obtain ⟨lease, rfl, htells⟩ := told_of_find? h hfind
    have ha := get?_of_find? hfind
    simp only [Lease.serve, Option.filter, htells.contains_permissions, hpermitted, if_true]
    exact .put ha (htells.permit (hs.wellFormed.fits ha) _) rfl
  | @untouched peer hrefused =>
    rw [isPermitted_eq h] at hrefused
    have hnone : entry.filter (·.permissions.contains peer) = none := by
      cases entry with
      | none => rfl
      | some lease => simpa [Option.filter] using hrefused
    simp only [Lease.serve, hnone]
    exact agrees_same h rfl
  | found =>
    rw [map_tenancy h hs hi]
    exact agrees_same h rfl
  | foundByPort =>
    rw [findGiven?_eq hs hi, map_tenancy h hs hi]
    exact agrees_same h rfl
  | permission =>
    rw [isPermitted_eq h]
    exact agrees_same h rfl
  | peer =>
    rw [peerOf?_eq h]
    exact agrees_same h rfl

end live

end TableSession

end TurnRelay

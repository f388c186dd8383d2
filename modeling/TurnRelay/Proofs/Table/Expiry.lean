import TurnRelay.Proofs.Table.Agreement
import TurnRelay.Proofs.Table.Occupancy

/-!
Expiry is invisible: wherever a table is reaped, it answers as if it had not been, and as a table of leases
does, in which all that ends is gone at once. The three show the same at every instant. Of the two tables
the one that is reaped has the fewer entries, so its pool is not the first to be exhausted.
-/

namespace TurnRelay

structure Holdings.ReapsExactly (h : Holdings) (now : Nat) : Prop where
  gone : ∀ a, a ∈ (h.reap now).1 ↔ h.table.allocations.get? a.tuple = some a ∧ a.ends ≤ now
  once : (h.reap now).1.Nodup
  left : ∀ tuple, (h.reap now).2.table.allocations.get? tuple =
    (h.table.find? tuple now).map (·.sweep now)

theorem Holdings.Sound.reapsExactly {h : Holdings} (hs : h.Sound) (now : Nat) : h.ReapsExactly now :=
  ⟨fun _ => mem_reap hs, nodup_reap hs now, fun tuple => get?_reap h now tuple⟩

namespace TableSession

variable {s other : TableSession} {leases : Leases} {tuple : FiveTuple} {random random' : Randomness}
  {now later : Nat} {request : TableRequest}

structure Tracks (now : Nat) (s : TableSession) (leases : Leases) : Prop where
  sound : s.holdings.Sound
  informed : s.Informed
  terms : s.holdings.table.terms = leases.terms
  shown : ∀ tuple, Lease.Shown now (leases.entries.get? tuple) (s.get? tuple)

theorem tracks_session {h : Holdings} (hs : h.Sound) (draws : Draws) (now : Nat) :
    (h.session draws).Tracks now h.table.leases where
  sound := hs
  informed := informed_session h draws
  terms := rfl
  shown tuple := by
    rw [AllocationTable.leases, Dictionary.get?_map, get?, Holdings.session]
    cases h.table.allocations.get? tuple with
    | none => exact .none
    | some a => exact .of_tells (Lease.tells_lease a now)

namespace Tracks

theorem age (h : s.Tracks now leases) (hle : now ≤ later) : s.Tracks later leases :=
  ⟨h.sound, h.informed, h.terms, fun tuple => (h.shown tuple).age hle⟩

theorem reap (h : s.Tracks now leases) : (s.reap now).Tracks now leases where
  sound := (Holdings.conserves_reap h.sound now).sound
  informed := h.informed.reap now
  terms := h.terms
  shown tuple := (h.shown tuple).sweep (Holdings.find?_reap s.holdings now tuple)

theorem live (h : s.Tracks now leases) (tuple : FiveTuple) :
    Option.Rel (Lease.Tells now) ((leases.pass now).entries.get? tuple)
      (s.holdings.table.find? tuple now) := by
  rw [Leases.get?_pass]
  exact h.shown tuple

theorem agrees (h : s.Tracks now leases) (random : Randomness)
    (hroom : s.roomy now tuple request = true) :
    Agrees now tuple request s
      (Lease.serve leases.terms now ((leases.pass now).entries.get? tuple) request)
      (s.serve random now tuple request) := by
  rw [← h.terms]
  exact Served.agrees (h.live tuple) (serve_spec random s now tuple request) h.sound h.informed hroom

theorem answer (h : s.Tracks now leases) (hroom : s.roomy now tuple request = true) :
    (s.serve random now tuple request).1 = (leases.serve now tuple request).1 :=
  (h.agrees random hroom).answer

theorem serve (h : s.Tracks now leases) (hroom : s.roomy now tuple request = true) :
    (s.serve random now tuple request).2.Tracks now (leases.serve now tuple request).2 := by
  have hframe := frame_serve h.sound random now tuple request
  refine ⟨hframe.conserves.sound, hframe.informed h.informed, ?_, fun third => ?_⟩
  · have hterms := hframe.conserves.terms_eq
    rw [hterms, h.terms, Leases.serve, Leases.terms_put]
    rfl
  · rw [Leases.serve, Leases.get?_put]
    by_cases hthird : third = tuple
    · rw [if_pos hthird, hthird]
      exact (h.agrees random hroom).shown
    · rw [if_neg hthird, hframe.others third hthird, Leases.get?_pass]
      exact (h.shown third).fade

theorem isSome_find? (h : s.Tracks now leases) (tuple : FiveTuple) :
    (s.holdings.table.find? tuple now).isSome = ((leases.pass now).entries.get? tuple).isSome := by
  have hlive := h.live tuple
  cases hfind : s.holdings.table.find? tuple now with
  | none => rw [untold_of_find? hlive hfind]; rfl
  | some a =>
    obtain ⟨lease, hlease, -⟩ := told_of_find? hlive hfind
    rw [hlease]
    rfl

variable (h : s.Tracks now leases) (hother : other.Tracks now leases)
  (hleaner : s.holdings.Leaner other.holdings) (hroom : other.roomy now tuple request = true)
include h hother hleaner hroom

theorem roomy : s.roomy now tuple request = true := by
  cases request with
  | allocate user lifetime =>
    have hsome : (s.holdings.table.find? tuple now).isSome = (other.holdings.table.find? tuple now).isSome :=
      (h.isSome_find? tuple).trans (hother.isSome_find? tuple).symm
    rw [TableSession.roomy, Bool.or_eq_true] at hroom ⊢
    rw [hsome]
    refine hroom.imp_right fun hfree => ?_
    rw [Bool.not_eq_true'] at hfree ⊢
    have hdrop := hleaner.dropExpired h.sound hother.sound tuple now hsome.symm.trans
    exact hdrop.not_exhausted (Holdings.conserves_dropExpired h.sound tuple now).sound
      (Holdings.conserves_dropExpired hother.sound tuple now).sound hfree
  | _ => rfl

theorem leaner : (s.serve random now tuple request).2.holdings.Leaner
    (other.serve random' now tuple request).2.holdings := by
  have hframe := frame_serve h.sound random now tuple request
  have hframe' := frame_serve hother.sound random' now tuple request
  have hagrees := h.agrees random (h.roomy hother hleaner hroom)
  have hagrees' := hother.agrees random' hroom
  refine hleaner.step hframe.conserves hframe'.conserves fun third hsome => ?_
  by_cases hthird : third = tuple
  · subst hthird
    have hoccupied := hagrees.occupied.symm.trans hsome
    rw [hagrees.answer, ← hagrees'.answer] at hoccupied
    exact hagrees'.occupied.trans (request.occupies_of_imp _ (hleaner.stored third) hoccupied)
  · have hkept := hframe.others third hthird
    have hkept' := hframe'.others third hthird
    rw [get?] at hkept hkept'
    rw [hkept] at hsome
    rw [hkept']
    exact hleaner.stored third hsome

end Tracks

theorem answers_eq {script : Script} (h : s.Tracks now leases) (hother : other.Tracks now leases)
    (hleaner : s.holdings.Leaner other.holdings) (hordered : script.Pairwise (·.1 ≤ ·.1))
    (hlater : ∀ step ∈ script, now ≤ step.1) (hroom : other.hasRoom random' script.requests = true) :
    s.answers random script = leases.answers script ∧
      other.answers random' script.requests = leases.answers script := by
  -- both tables go on showing what the leases do, and the one that is reaped stays the leaner
  induction script generalizing now s other leases with
  | nil => exact ⟨rfl, rfl⟩
  | cons step script ih =>
    obtain ⟨time, act⟩ := step
    obtain ⟨hnext, hrest⟩ := List.pairwise_cons.1 hordered
    have hs := h.age (hlater _ List.mem_cons_self)
    have hs' := hother.age (hlater _ List.mem_cons_self)
    cases act with
    | reap =>
      exact ih hs.reap hs' (hleaner.reap h.sound hother.sound time) hrest hnext hroom
    | ask tuple request =>
      obtain ⟨hfree, hroom⟩ := Bool.and_eq_true_iff.1 hroom
      have hfree' := hs.roomy hs' hleaner hfree
      obtain ⟨hanswers, hanswers'⟩ := ih (hs.serve hfree') (hs'.serve hfree)
        (hs.leaner hs' hleaner hfree) hrest hnext hroom
      exact ⟨List.cons_eq_cons.2 ⟨hs.answer hfree', hanswers⟩,
        List.cons_eq_cons.2 ⟨hs'.answer hfree, hanswers'⟩⟩

end TableSession

/-- Reaps change no answer, and what has ended has no part in any. A reap gives just what has ended, and
ports lead to what is live. -/
theorem Holdings.expiry_invisible {h : Holdings} (hs : h.Sound) (random random' : Randomness)
    (draws draws' : Draws) {script : Script} (hordered : script.Pairwise (·.1 ≤ ·.1))
    (hroom : (h.session draws').hasRoom random' script.requests = true) :
    (h.session draws).answers random script = h.table.leases.answers script ∧
      (h.session draws').answers random' script.requests = h.table.leases.answers script ∧
      ∀ count now, let reached := ((h.session draws).after random (script.take count)).holdings
        reached.ReapsExactly now ∧ ∀ port a, reached.table.findByPort? port now = some a ↔
          reached.table.find? a.tuple now = some a ∧ a.relay.port = port := by
  obtain ⟨hreaped, hplain⟩ := TableSession.answers_eq (TableSession.tracks_session hs draws 0)
    (TableSession.tracks_session hs draws' 0) (.refl h) hordered (fun _ _ => Nat.zero_le _) hroom
  refine ⟨hreaped, hplain, fun count now => ?_⟩
  have hsound := TableSession.sound_after (s := h.session draws) hs random (script.take count)
  exact ⟨hsound.reapsExactly now, fun port a => hsound.wellFormed.findByPort?_eq_some_iff⟩

namespace TableSample

def random : Randomness := ⟨fun n => n, fun _ => 0, fun _ => 'a'⟩

def otherRandom : Randomness := ⟨fun _ => 3, fun _ => 0, fun _ => 'a'⟩

def holdings : Holdings := ⟨.fresh (.v4 0xC0000201) 5 8, ⟨⟨50000, 50003⟩, [50000]⟩⟩

def alice : FiveTuple := ⟨.v4 0xC6336407 5000, .v4 0x0A000001 3478, .udp⟩

def bob : FiveTuple := ⟨.v4 0xC6336408 5000, .v4 0x0A000001 3478, .udp⟩

def peer : TransportAddress := .v4 0xCB007109 7000

def script : Script :=
  [(0, .ask alice (.allocate "alice" 10)), (1, .ask alice (.permit "alice" peer.ip)),
    (2, .ask alice (.bindChannel "alice" 0x4000 peer)), (4, .reap),
    (7, .ask alice (.isPermitted peer.ip)), (8, .reap), (9, .ask alice (.peerOf 0x4000)), (10, .reap),
    (10, .ask bob (.allocate "bob" 50)), (11, .ask alice .findByPort),
    (12, .ask alice (.allocate "alice" 10)), (13, .ask alice .findByPort), (14, .reap),
    (14, .ask alice (.bindChannel "alice" 0x4001 peer)), (15, .ask alice (.refresh "alice" 0))]

theorem sound_holdings : holdings.Sound where
  wellFormed := AllocationTable.wellFormed_fresh ..
  taken := fun _ hport => absurd hport List.not_mem_nil
  nodup := by decide

end TableSample

open TableSample in
theorem expiry_invisible_sample :
    holdings.Sound ∧ script.Pairwise (·.1 ≤ ·.1) ∧
      (holdings.session .none).hasRoom otherRandom script.requests = true ∧
      (holdings.session .none).answers random script =
        [.created (.v4 0xC0000201), .flag true, .flag true, .flag false, .peer (some peer),
          .created (.v4 0xC0000201), .found none, .created (.v4 0xC0000201),
          .found (some ⟨"alice", 12, 22, true⟩), .flag true, .deleted ⟨"alice", 12, 22, true⟩] := by
  have hordered : script.Pairwise (·.1 ≤ ·.1) := by decide
  have hroom : (holdings.session .none).hasRoom otherRandom script.requests = true := by decide +kernel
  have hanswers := Holdings.expiry_invisible sound_holdings random otherRandom .none .none hordered hroom
  exact ⟨sound_holdings, hordered, hroom, hanswers.1.trans (by decide +kernel)⟩

end TurnRelay

import TurnRelay.Proofs.Service.References

/-!
Runs of a service: the host obtains, removes and drops endpoints and makes calls at them in any order,
while the clock advances. Seen from one endpoint, a run of the service is a run of that endpoint.
-/

namespace TurnRelay

namespace Service

variable {random : Randomness} {service after : Service} {id : EndpointId} {e : Endpoint} {now : Nat}
  {call : Call} {outcome : Outcome} {events : List Event} {loose : List EndpointId}

def report {α : Type} (outcome : α → Outcome) :
    α × List Event × Service → Outcome × List Event × Service
  | (result, events, after) => (outcome result, events, after)

def serve (random : Randomness) (service : Service) (id : EndpointId) (now : Nat) :
    Call → Option (Outcome × List Event × Service)
  | .receive raw source => (service.receive id raw source now).map (report .progress)
  | .resume lookup password => (service.resume random id lookup password now).map (report .answer)
  | .deliver port peer payload =>
    (service.deliver random id port peer payload now).map (report .response)
  | .reject raw error => (service.reject random id raw error).map (report .response)
  | .shutdown => (service.shutdown id).map (report fun _ => .silence)

theorem serve_eq (random : Randomness) (service : Service) (id : EndpointId) (now : Nat) (call : Call) :
    service.serve random id now call = service.perform id (·.serve random now call) := by
  cases call <;> simp only [serve, receive, resume, deliver, reject, shutdown, perform] <;>
    cases service.site? id <;> rfl

theorem serve_eq_some (h : service.serve random id now call = some (outcome, events, after)) :
    ∃ e, service.endpoints.get? id = some e ∧
      (Site.serve random ⟨e, service.pool e.external.ip, service.draws⟩ now call).result = outcome ∧
      after = service.store id
        (Site.serve random ⟨e, service.pool e.external.ip, service.draws⟩ now call).site := by
  rw [serve_eq, perform, site?] at h
  cases he : service.endpoints.get? id with
  | none => rw [he] at h; cases h
  | some e =>
    rw [he] at h
    cases h
    exact ⟨e, rfl, rfl, rfl⟩

theorem serve_of_get? (he : service.endpoints.get? id = some e) :
    let step := Site.serve random ⟨e, service.pool e.external.ip, service.draws⟩ now call
    service.serve random id now call = some (step.result, step.events, service.store id step.site) := by
  rw [serve_eq, perform, site?, he]
  rfl

theorem Sound.serve (h : service.Sound loose) (he : service.endpoints.get? id = some e)
    (random : Randomness) (now : Nat) (call : Call) :
    (service.store id
      (Site.serve random ⟨e, service.pool e.external.ip, service.draws⟩ now call).site).Sound loose := by
  have hserved := Site.serve_spec random ⟨e, service.pool e.external.ip, service.draws⟩ now call
  exact h.store he (hserved.sound (h.site he)) hserved.identity (hserved.conserves (h.site he).holdings)

theorem obtain_eq_some {interface external : String}
    (h : service.obtain interface external = some (id, after)) :
    (∃ key, service.registry.get? key = some id ∧ after = service.hold id) ∨
    ∃ interface external, service.registry.get? (interface, external) = none ∧ id = service.nextId ∧
      after = (service.register interface external).2.hold id := by
  unfold Service.obtain at h
  cases hinterface : TransportAddress.ofText? interface with
  | none => rw [hinterface] at h; cases h
  | some interface =>
    cases hexternal : TransportAddress.ofText? external with
    | none => rw [hinterface, hexternal] at h; cases h
    | some external =>
      simp only [hinterface, hexternal, bind, Option.bind] at h
      split at h
      · cases hkey : service.registry.get? (interface, external) with
        | some found =>
          simp only [hkey] at h
          cases h
          exact .inl ⟨_, hkey, rfl⟩
        | none =>
          simp only [hkey] at h
          cases h
          exact .inr ⟨_, _, hkey, rfl, rfl⟩
      · cases h

theorem remove_eq_ok (random : Randomness) (now : Nat) {interface external : String} {found : Bool}
    (h : service.remove interface external = .ok (found, events, after)) :
    after = service ∨ ∃ key id, service.registry.get? key = some id ∧
      (service.endpoints.get? id = none ∨ ∃ e, service.endpoints.get? id = some e ∧
        after = ((service.unregister key).store id
          (Site.serve random ⟨e, service.pool e.external.ip, service.draws⟩ now .shutdown).site).collect
            id) := by
  unfold Service.remove at h
  cases hinterface : Config.address interface with
  | error e => rw [hinterface] at h; cases h
  | ok interface =>
    cases hexternal : Config.address external with
    | error e => rw [hinterface, hexternal] at h; cases h
    | ok external =>
      simp only [hinterface, hexternal, bind, Except.bind] at h
      cases hkey : service.registry.get? (interface, external) with
      | none =>
        simp only [hkey] at h
        cases h
        exact .inl rfl
      | some id =>
        refine .inr ⟨_, id, hkey, ?_⟩
        cases he : service.endpoints.get? id with
        | none => exact .inl rfl
        | some e =>
          refine .inr ⟨e, rfl, ?_⟩
          simp only [hkey, perform, site?, he] at h
          cases h
          rfl

theorem Sound.obtain (h : service.Sound loose) {interface external : String}
    (hobtain : service.obtain interface external = some (id, after)) :
    after.Sound loose ∧ after.config = service.config := by
  rcases obtain_eq_some hobtain with ⟨key, hkey, rfl⟩ | ⟨interface, external, hfree, rfl, rfl⟩
  · obtain ⟨e, he⟩ := h.alive (isReferenced_iff.2 (.inl ⟨key, hkey⟩))
    exact ⟨h.hold he, rfl⟩
  · refine ⟨(h.register hfree).hold (e := .fresh interface external service.config) ?_, rfl⟩
    rw [endpoints_register, if_pos rfl]

theorem Sound.remove (h : service.Sound []) {interface external : String} {found : Bool}
    (hremove : service.remove interface external = .ok (found, events, after)) :
    after.Sound [] ∧ after.config = service.config := by
  rcases remove_eq_ok ⟨fun _ => 0, fun _ => 0, fun _ => 'a'⟩ 0 hremove with rfl | ⟨key, id, hkey, hafter⟩
  · exact ⟨h, rfl⟩
  · obtain ⟨e, he⟩ := h.alive (isReferenced_iff.2 (.inl ⟨key, hkey⟩))
    rcases hafter with hnone | ⟨f, hf, rfl⟩
    · rw [hnone] at he
      cases he
    · exact ⟨((h.unregister hkey).serve hf _ _ _).collect, (shrinks_collect ..).config_eq⟩

theorem sound_ofConfig {config : Config} (h : ofConfig config = .ok service) :
    service.Sound [] ∧ service.config = config := by
  unfold ofConfig at h
  split at h
  · cases h
  · cases h
    refine ⟨⟨⟨?_, ?_, ?_, ?_, ?_, ?_⟩, ?_, ?_, ?_, ?_⟩, rfl⟩
    · intro id e he
      cases he
    · intro i j e f port he
      cases he
    · intro ip port hport
      cases hport
    · exact fun ip => List.nodup_nil
    · exact fun ip => rfl
    · intro ip port hport
      cases hport
    · intro id hreferenced
      cases hreferenced
    · intro id e he
      cases he
    · intro key id e hkey
      cases hkey
    · intro id e he
      cases he

end Service

/-- A service in the hands of its host, with the lookups that wait at each endpoint. -/
structure Host where
  service : Service
  now : Nat
  waiting : EndpointId → List Lookup

namespace Host

inductive Step (random : Randomness) : Host → Host → Prop
  | obtain {h : Host} {interface external : String} {id : EndpointId} {after : Service} :
      h.service.obtain interface external = some (id, after) →
      Step random h { h with service := after }
  | remove {h : Host} {interface external : String} {found : Bool} {events : List Event}
      {after : Service} : h.service.remove interface external = .ok (found, events, after) →
      Step random h { h with service := after }
  | release {h : Host} {id : EndpointId} : id ∈ h.service.holds →
      Step random h { h with service := h.service.release id }
  | close {h : Host} : Step random h { h with service := h.service.close }
  | serve {h : Host} {id : EndpointId} {call : Call} {outcome : Outcome} {events : List Event}
      {after : Service} : call.Fits (h.waiting id) →
      h.service.serve random id h.now call = some (outcome, events, after) →
      Step random h ⟨after, h.now,
        fun other =>
          if other = id then call.waitingAfter (h.waiting id) outcome else h.waiting other⟩
  | wait {h : Host} {later : Nat} : h.now ≤ later → Step random h { h with now := later }

def serve (random : Randomness) (h : Host) (id : EndpointId) (e : Endpoint) (call : Call) : Host :=
  let step := Site.serve random ⟨e, h.service.pool e.external.ip, h.service.draws⟩ h.now call
  ⟨h.service.store id step.site, h.now, fun other =>
    if other = id then call.waitingAfter (h.waiting id) step.result else h.waiting other⟩

theorem Step.serve_of_get? {random : Randomness} {h : Host} {id : EndpointId} {e : Endpoint}
    {call : Call} (he : h.service.endpoints.get? id = some e) (hfits : call.Fits (h.waiting id)) :
    Step random h (h.serve random id e call) :=
  .serve hfits (Service.serve_of_get? he)

inductive Reachable (random : Randomness) (config : Config) : Host → Prop
  | start {service : Service} {now : Nat} : Service.ofConfig config = .ok service →
      Reachable random config ⟨service, now, fun _ => []⟩
  | step {h h' : Host} : Reachable random config h → Step random h h' → Reachable random config h'

def perform (random : Randomness) (h : Host) (id : EndpointId) (call : Call) : Host :=
  match h.service.endpoints.get? id with
  | none => h
  | some e => h.serve random id e call

def play (random : Randomness) : Host → List (EndpointId × Call) → Host
  | h, [] => h
  | h, (id, call) :: calls => (h.perform random id call).play random calls

def Plays (random : Randomness) : Host → List (EndpointId × Call) → Prop
  | _, [] => True
  | h, (id, call) :: calls => call.Fits (h.waiting id) ∧ (h.perform random id call).Plays random calls

instance decidablePlays (random : Randomness) :
    (h : Host) → (calls : List (EndpointId × Call)) → Decidable (h.Plays random calls)
  | _, [] => .isTrue trivial
  | h, (id, call) :: calls =>
    have := decidablePlays random (h.perform random id call) calls
    inferInstanceAs (Decidable (call.Fits (h.waiting id) ∧ (h.perform random id call).Plays random calls))

variable {random : Randomness} {config : Config} {h h' : Host}

theorem Reachable.perform (hreach : Reachable random config h) {id : EndpointId} {call : Call}
    (hfits : call.Fits (h.waiting id)) : Reachable random config (h.perform random id call) := by
  unfold Host.perform
  split
  · exact hreach
  · next he => exact hreach.step (.serve_of_get? he hfits)

theorem Reachable.play (hreach : Reachable random config h) {calls : List (EndpointId × Call)}
    (hplays : h.Plays random calls) : Reachable random config (h.play random calls) := by
  induction calls generalizing h with
  | nil => exact hreach
  | cons made calls ih => exact ih (hreach.perform hplays.1) hplays.2

theorem Step.sound (hstep : Step random h h') (hs : h.service.Sound []) :
    h'.service.Sound [] ∧ h'.service.config = h.service.config := by
  cases hstep with
  | obtain hobtain => exact hs.obtain hobtain
  | remove hremove => exact hs.remove hremove
  | release _ => exact ⟨hs.release _, (Service.shrinks_release ..).config_eq⟩
  | close => exact ⟨hs.close, (Service.shrinks_close _).config_eq⟩
  | serve _ hserve =>
    obtain ⟨e, he, _, rfl⟩ := Service.serve_eq_some hserve
    exact ⟨hs.serve he random _ _, rfl⟩
  | wait _ => exact ⟨hs, rfl⟩

theorem Reachable.sound (hreach : Reachable random config h) :
    h.service.Sound [] ∧ h.service.config = config := by
  induction hreach with
  | start hconfig => exact Service.sound_ofConfig hconfig
  | step _ hstep ih =>
    obtain ⟨hs, hconfig⟩ := hstep.sound ih.1
    exact ⟨hs, hconfig.trans ih.2⟩

def Tracks (random : Randomness) (h : Host) (id : EndpointId) (e : Endpoint) : Prop :=
  ∃ log, Run random log
    ⟨⟨e, h.service.pool e.external.ip, h.service.draws⟩, h.now, h.waiting id⟩

variable {id : EndpointId} {e : Endpoint} {loose : List EndpointId}

theorem Tracks.share (ht : h.Tracks random id e) (hs : h.service.Ledger) {after : Service}
    (hafter : after.Ledger) (hconfig : after.config = h.service.config)
    (he : after.endpoints.get? id = some e) : Tracks random { h with service := after } id e := by
  cases ht with
  | intro log hrun =>
    have hrange : (after.pool e.external.ip).range = (h.service.pool e.external.ip).range := by
      rw [hafter.range_eq, hs.range_eq, hconfig]
    exact ⟨log, .share hrun hrange (hafter.nodup _) (hafter.site he).holdings.taken⟩

theorem Tracks.serve (ht : h.Tracks random id e) {call : Call} (hfits : call.Fits (h.waiting id)) :
    let step := Site.serve random ⟨e, h.service.pool e.external.ip, h.service.draws⟩ h.now call
    (h.serve random id e call).Tracks random id step.site.endpoint := by
  cases ht with
  | intro log hrun =>
    intro step
    have hpool : (h.serve random id e call).service.pool step.site.endpoint.external.ip =
        step.site.pool := by
      apply (Service.pool_store ..).trans
      rw [if_pos rfl]
    have hwaiting : (h.serve random id e call).waiting id =
        call.waitingAfter (h.waiting id) step.result := if_pos rfl
    have hnext := Run.serve hrun hfits
    rw [Tracks, hpool, hwaiting]
    exact ⟨_, hnext⟩

/-- Every endpoint that is alive runs on its own, and none that is still to come has anything waiting. -/
structure Tracked (random : Randomness) (h : Host) : Prop where
  tracks : ∀ {id e}, h.service.endpoints.get? id = some e → h.Tracks random id e
  unborn : ∀ {id}, h.service.nextId ≤ id → h.waiting id = []

theorem Tracked.shrink (ht : h.Tracked random) (hs : h.service.Ledger) {after : Service}
    (hafter : after.Ledger) (hshrinks : h.service.Shrinks after) :
    Tracked random { h with service := after } := by
  refine ⟨fun he => ?_, fun hid => ht.unborn (hshrinks.nextId_eq ▸ hid)⟩
  exact (ht.tracks (hshrinks.endpoints he)).share hs hafter hshrinks.config_eq he

theorem Tracked.serve (ht : h.Tracked random) (hs : h.service.Sound loose) {call : Call}
    (he : h.service.endpoints.get? id = some e) (hfits : call.Fits (h.waiting id)) :
    (h.serve random id e call).Tracked random := by
  have hwaiting : ∀ {other}, other ≠ id → (h.serve random id e call).waiting other = h.waiting other :=
    fun hne => if_neg hne
  have hafter := hs.serve he random h.now call
  refine ⟨?_, ?_⟩
  · intro other f hf
    have hold := (Service.endpoints_store ..).symm.trans hf
    by_cases hother : other = id
    · subst hother
      rw [if_pos rfl] at hold
      cases hold
      exact (ht.tracks he).serve hfits
    · rw [if_neg hother] at hold
      -- to another endpoint the call is a change of the pool that they share
      obtain ⟨log, hrun⟩ := (ht.tracks hold).share hs.toLedger hafter.toLedger rfl hf
      refine ⟨log, ?_⟩
      rw [hwaiting hother]
      exact hrun
  · intro other hother
    have hne : other ≠ id := fun hsame => absurd (hs.below he) (Nat.not_lt.2 (hsame ▸ hother))
    rw [hwaiting hne]
    exact ht.unborn hother

theorem Tracked.register (ht : h.Tracked random) (hs : h.service.Sound [])
    {interface external : TransportAddress}
    (hfree : h.service.registry.get? (interface, external) = none) :
    Tracked random { h with service := (h.service.register interface external).2 } := by
  have hafter := hs.register hfree
  refine ⟨?_, fun hid => ht.unborn (Nat.le_of_succ_le hid)⟩
  intro id e he
  have hcase := he
  rw [Service.endpoints_register] at hcase
  split at hcase
  · next hid =>
    cases hcase
    refine ⟨[], ?_⟩
    have hnone : h.waiting id = [] := ht.unborn (Nat.le_of_eq hid.symm)
    rw [hnone]
    exact .start (hafter.nodup _)
  · exact (ht.tracks hcase).share hs.toLedger hafter.toLedger rfl he

theorem Step.tracked (hstep : Step random h h') (hs : h.service.Sound []) (ht : h.Tracked random) :
    h'.Tracked random := by
  have hafter := (hstep.sound hs).1
  cases hstep with
  | obtain hobtain =>
    rcases Service.obtain_eq_some hobtain with ⟨key, _, rfl⟩ | ⟨interface, external, hfree, rfl, rfl⟩
    · exact ht.shrink hs.toLedger hafter.toLedger ⟨rfl, rfl, fun he => he⟩
    · exact (ht.register hs hfree).shrink (hs.register hfree).toLedger hafter.toLedger
        ⟨rfl, rfl, fun he => he⟩
  | remove hremove =>
    rcases Service.remove_eq_ok random h.now hremove with rfl | ⟨key, id, hkey, hnone | ⟨e, he, rfl⟩⟩
    · exact ht
    · obtain ⟨e, he⟩ := hs.alive (Service.isReferenced_iff.2 (.inl ⟨key, hkey⟩))
      rw [hnone] at he
      cases he
    · have hloose := hs.unregister hkey
      have hfits : Call.shutdown.Fits (h.waiting id) := trivial
      have hserved := (ht.shrink hs.toLedger hloose.toLedger ⟨rfl, rfl, fun he => he⟩).serve hloose he
        hfits
      have hwaiting : (fun other => if other = id then h.waiting id else h.waiting other) = h.waiting := by
        funext other
        split
        · next hsame => rw [hsame]
        · rfl
      have hstopped := hloose.serve he random h.now .shutdown
      have hcollected := hserved.shrink hstopped.toLedger hafter.toLedger (Service.shrinks_collect ..)
      rw [← hwaiting]
      exact hcollected
  | release _ => exact ht.shrink hs.toLedger hafter.toLedger (Service.shrinks_release ..)
  | close => exact ht.shrink hs.toLedger hafter.toLedger (Service.shrinks_close _)
  | serve hfits hserve =>
    obtain ⟨e, he, rfl, rfl⟩ := Service.serve_eq_some hserve
    exact ht.serve hs he hfits
  | wait hlater =>
    refine ⟨fun he => ?_, ht.unborn⟩
    obtain ⟨log, hrun⟩ := ht.tracks he
    exact ⟨log, .wait hrun hlater⟩

theorem Reachable.tracked (hreach : Reachable random config h) : h.Tracked random := by
  induction hreach with
  | start hconfig =>
    refine ⟨fun he => ?_, fun _ => rfl⟩
    unfold Service.ofConfig at hconfig
    split at hconfig
    · cases hconfig
    · cases hconfig
      cases he
  | step hreach hstep ih => exact hstep.tracked hreach.sound.1 ih

end Host

end TurnRelay

import TurnRelay.Proofs.Table.Conservation
import TurnRelay.Proofs.Table.Lease

namespace TurnRelay

structure TableSession where
  holdings : Holdings
  draws : Draws
  /-- The relay address that each 5-tuple was last given. -/
  given : Dictionary FiveTuple TransportAddress

def Holdings.session (h : Holdings) (draws : Draws) : TableSession :=
  ⟨h, draws, h.table.allocations.map (·.relay)⟩

theorem Holdings.Conserves.terms_eq {before after : Holdings} (h : before.Conserves after) :
    after.table.terms = before.table.terms := by
  simp only [AllocationTable.terms, h.relayIp_eq, h.permission_lifetime, h.channel_lifetime]

namespace TableSession

def get? (s : TableSession) (tuple : FiveTuple) : Option Allocation :=
  s.holdings.table.allocations.get? tuple

def tenancy (s : TableSession) (a : Allocation) : Tenancy :=
  ⟨a.username, a.created, a.ends, s.given.get? a.tuple = some a.relay⟩

/-- The allocation of `tuple`, looked up by the relay port that it was given. Whoever else may have the
port by now is not asked for. -/
def findGiven? (s : TableSession) (tuple : FiveTuple) (now : Nat) : Option Allocation := do
  let relay ← s.given.get? tuple
  (s.holdings.table.findByPort? relay.port now).filter (·.tuple = tuple)

def withTable (s : TableSession) (table : AllocationTable) : TableSession :=
  { s with holdings := { s.holdings with table := table } }

def put (s : TableSession) (tuple : FiveTuple) (a : Allocation) : TableSession :=
  s.withTable (s.holdings.table.put tuple a)

def serve (random : Randomness) (s : TableSession) (now : Nat) (tuple : FiveTuple) :
    TableRequest → TableAnswer × TableSession
  | .allocate user lifetime =>
    match s.holdings.allocate random s.draws tuple user lifetime now with
    | (.error e, h, draws) => (.refused e, { s with holdings := h, draws := draws })
    | (.ok (.created relay), h, draws) => (.created relay.ip, ⟨h, draws, s.given.insert tuple relay⟩)
    | (.ok (.refreshed relay), h, draws) =>
      (.extended (s.given.get? tuple = some relay), { s with holdings := h, draws := draws })
  | .refresh user lifetime =>
    match s.holdings.refresh tuple user lifetime now with
    | .error e => (.refused e, s)
    | .ok (.refreshed, h) => (.refreshed, { s with holdings := h })
    | .ok (.deleted a, h) => (.deleted (s.tenancy a), { s with holdings := h })
  | .permit user peer =>
    match s.holdings.table.permit tuple user peer now with
    | .error e => (.refused e, s)
    | .ok (new, table) => (.flag new, s.withTable table)
  | .bindChannel user number peer =>
    match s.holdings.table.bindChannel tuple user number peer now with
    | (.error e, table) => (.refused e, s.withTable table)
    | (.ok new, table) => (.flag new, s.withTable table)
  | .touch peer =>
    match s.holdings.table.touch tuple peer now with
    | (found, table) => (.flag found, s.withTable table)
  | .find => (.found ((s.holdings.table.find? tuple now).map s.tenancy), s)
  | .findByPort => (.found ((s.findGiven? tuple now).map s.tenancy), s)
  | .isPermitted peer => (.flag (s.holdings.table.isPermitted tuple peer now), s)
  | .peerOf number => (.peer (s.holdings.table.peerOf? tuple number now), s)

def reap (s : TableSession) (now : Nat) : TableSession := { s with holdings := (s.holdings.reap now).2 }

def act (random : Randomness) (s : TableSession) (now : Nat) : TableAct → TableSession
  | .ask tuple request => (s.serve random now tuple request).2
  | .reap => s.reap now

def after (random : Randomness) (s : TableSession) (script : Script) : TableSession :=
  script.foldl (fun s step => s.act random step.1 step.2) s

def answers (random : Randomness) : TableSession → Script → List TableAnswer
  | _, [] => []
  | s, (now, .ask tuple request) :: script =>
    let (answer, next) := s.serve random now tuple request
    answer :: next.answers random script
  | s, (now, .reap) :: script => (s.reap now).answers random script

def roomy (s : TableSession) (now : Nat) (tuple : FiveTuple) : TableRequest → Bool
  | .allocate .. =>
    (s.holdings.table.find? tuple now).isSome || !(s.holdings.dropExpired tuple now).pool.isExhausted
  | _ => true

def hasRoom (random : Randomness) : TableSession → Script → Bool
  | _, [] => true
  | s, (now, .ask tuple request) :: script =>
    s.roomy now tuple request && (s.serve random now tuple request).2.hasRoom random script
  | s, (now, .reap) :: script => (s.reap now).hasRoom random script

variable {s next : TableSession} {tuple : FiveTuple} {a b : Allocation} {user : String}
  {random : Randomness} {now : Nat}

theorem get?_put (s : TableSession) (tuple other : FiveTuple) (a : Allocation) :
    (s.put tuple a).get? other = if other = tuple then some a else s.get? other :=
  AllocationTable.get?_put ..

theorem get?_of_find? (h : s.holdings.table.find? tuple now = some a) : s.get? tuple = some a :=
  (AllocationTable.find?_eq_some_iff.1 h).1

theorem get?_of_owned (h : s.holdings.table.owned tuple user now = .ok a) : s.get? tuple = some a :=
  (AllocationTable.stored_of_owned h).1

inductive Served (random : Randomness) (s : TableSession) (now : Nat) (tuple : FiveTuple) :
    TableRequest → TableAnswer × TableSession → Prop
  | extended {user : String} {lifetime : Nat} {a : Allocation} :
      s.holdings.table.find? tuple now = some a → a.username = user →
      Served random s now tuple (.allocate user lifetime)
        (.extended (s.given.get? tuple = some a.relay), s.put tuple (a.extend (now + lifetime)))
  | occupied {user : String} {lifetime : Nat} {a : Allocation} :
      s.holdings.table.find? tuple now = some a → a.username ≠ user →
      Served random s now tuple (.allocate user lifetime) (.refused .integrityFailed, s)
  | exhausted {user : String} {lifetime : Nat} {after : Draws} :
      s.holdings.table.find? tuple now = none →
      (s.holdings.dropExpired tuple now).pool.draw random s.draws = (none, after) →
      Served random s now tuple (.allocate user lifetime)
        (.refused .invalidInput, ⟨s.holdings.dropExpired tuple now, after, s.given⟩)
  | created {user : String} {lifetime : Nat} {port : UInt16} {pool : PortPool} {after : Draws} :
      s.holdings.table.find? tuple now = none →
      (s.holdings.dropExpired tuple now).pool.draw random s.draws = (some (port, pool), after) →
      Served random s now tuple (.allocate user lifetime)
        (.created s.holdings.table.relayIp,
          ⟨(s.holdings.dropExpired tuple now).grant tuple user port pool lifetime now, after,
            s.given.insert tuple (s.holdings.table.relayIp.withPort port)⟩)
  | disowned {request : TableRequest} {user : String} {e : PacketError} : request.owner? = some user →
      s.holdings.table.owned tuple user now = .error e → Served random s now tuple request (.refused e, s)
  | renewed {user : String} {lifetime : Nat} {a : Allocation} : lifetime ≠ 0 →
      s.holdings.table.owned tuple user now = .ok a →
      Served random s now tuple (.refresh user lifetime)
        (.refreshed, s.put tuple (a.extend (now + lifetime)))
  | deleted {user : String} {a : Allocation} : s.holdings.table.owned tuple user now = .ok a →
      Served random s now tuple (.refresh user 0)
        (.deleted (s.tenancy a), { s with holdings := (s.holdings.remove tuple).2 })
  | permitted {user : String} {peer : IpAddress} {a : Allocation} :
      s.holdings.table.owned tuple user now = .ok a →
      Served random s now tuple (.permit user peer)
        (.flag !a.isPermitted peer now, s.put tuple (a.permit peer now))
  | bound {user : String} {number : UInt16} {peer : TransportAddress} {a : Allocation} :
      s.holdings.table.owned tuple user now = .ok a → isChannelNumber number = true →
      (a.channels.reap now).admits number peer = true →
      Served random s now tuple (.bindChannel user number peer)
        (.flag !(a.channels.reap now).bindings.contains number,
          s.put tuple ({ a with channels := (a.channels.reap now).store number peer now }.permit peer.ip now))
  | unbound {user : String} {number : UInt16} {peer : TransportAddress} {a : Allocation}
      {channels : ChannelTable} : s.holdings.table.owned tuple user now = .ok a →
      (isChannelNumber number && (a.channels.reap now).admits number peer) = false →
      channels = a.channels ∨ channels = a.channels.reap now →
      Served random s now tuple (.bindChannel user number peer)
        (.refused .invalidInput, s.put tuple { a with channels := channels })
  | touched {peer : IpAddress} {a : Allocation} : s.holdings.table.find? tuple now = some a →
      a.isPermitted peer now = true →
      Served random s now tuple (.touch peer) (.flag true, s.put tuple (a.permit peer now))
  | untouched {peer : IpAddress} : s.holdings.table.isPermitted tuple peer now = false →
      Served random s now tuple (.touch peer) (.flag false, s)
  | found : Served random s now tuple .find
      (.found ((s.holdings.table.find? tuple now).map s.tenancy), s)
  | foundByPort : Served random s now tuple .findByPort
      (.found ((s.findGiven? tuple now).map s.tenancy), s)
  | permission {peer : IpAddress} : Served random s now tuple (.isPermitted peer)
      (.flag (s.holdings.table.isPermitted tuple peer now), s)
  | peer {number : UInt16} : Served random s now tuple (.peerOf number)
      (.peer (s.holdings.table.peerOf? tuple number now), s)

theorem serve_allocate (random : Randomness) (s : TableSession) (now : Nat) (tuple : FiveTuple)
    (user : String) (lifetime : Nat) : Served random s now tuple (.allocate user lifetime)
      (s.serve random now tuple (.allocate user lifetime)) := by
  have hentry : (s.holdings.dropExpired tuple now).table.allocations.get? tuple =
      s.holdings.table.find? tuple now := by
    rw [Holdings.get?_dropExpired, if_pos rfl]
  have hspec := Holdings.allocate_spec random s.holdings s.draws tuple user lifetime now
  rw [serve]
  generalize s.holdings.allocate random s.draws tuple user lifetime now = result at hspec
  cases hspec with
  | refreshed ha huser =>
    have hfind := hentry.symm.trans ha
    rw [Holdings.dropExpired_of_find? hfind]
    exact .extended hfind huser
  | foreign ha huser =>
    have hfind := hentry.symm.trans ha
    rw [Holdings.dropExpired_of_find? hfind]
    exact .occupied hfind huser
  | exhausted hnone hdraw => exact .exhausted (hentry.symm.trans hnone) hdraw
  | created hnone hdraw =>
    simp only [IpAddress.ip_withPort]
    exact .created (hentry.symm.trans hnone) hdraw

theorem serve_bindChannel (random : Randomness) (s : TableSession) (now : Nat) (tuple : FiveTuple)
    (user : String) (number : UInt16) (peer : TransportAddress) :
    Served random s now tuple (.bindChannel user number peer)
      (s.serve random now tuple (.bindChannel user number peer)) := by
  rw [serve, AllocationTable.bindChannel]
  cases howned : s.holdings.table.owned tuple user now with
  | error e => exact .disowned rfl howned
  | ok a =>
    by_cases hnumber : isChannelNumber number = true
    · by_cases hadmits : (a.channels.reap now).admits number peer = true
      · simp only [ChannelTable.bind, hnumber, hadmits, if_true]
        exact .bound howned hnumber hadmits
      · simp only [ChannelTable.bind, hnumber, hadmits, if_true]
        exact .unbound howned (by simp [hadmits]) (.inr rfl)
    · simp only [ChannelTable.bind, hnumber]
      exact .unbound howned (by simp [hnumber]) (.inl rfl)

theorem serve_spec (random : Randomness) (s : TableSession) (now : Nat) (tuple : FiveTuple)
    (request : TableRequest) :
    Served random s now tuple request (s.serve random now tuple request) := by
  cases request with
  | allocate user lifetime => exact serve_allocate random s now tuple user lifetime
  | refresh user lifetime =>
    rw [serve]
    cases howned : s.holdings.table.owned tuple user now with
    | error e =>
      rw [Holdings.refresh_of_error howned]
      exact .disowned rfl howned
    | ok a =>
      rw [Holdings.refresh_of_owned howned]
      by_cases hzero : lifetime = 0
      · rw [if_pos hzero, hzero]
        exact .deleted howned
      · rw [if_neg hzero]
        exact .renewed hzero howned
  | permit user peer =>
    rw [serve]
    cases howned : s.holdings.table.owned tuple user now with
    | error e =>
      rw [AllocationTable.permit_of_error howned]
      exact .disowned rfl howned
    | ok a =>
      rw [AllocationTable.permit_of_owned howned]
      exact .permitted howned
  | bindChannel user number peer => exact serve_bindChannel random s now tuple user number peer
  | touch peer =>
    rw [serve, AllocationTable.touch]
    cases hfind : s.holdings.table.find? tuple now with
    | none => exact .untouched (by rw [AllocationTable.isPermitted, hfind]; rfl)
    | some a =>
      by_cases hpermitted : a.isPermitted peer now = true
      · simp only [if_pos hpermitted]
        exact .touched hfind hpermitted
      · simp only [if_neg hpermitted]
        exact .untouched (by simpa [AllocationTable.isPermitted, hfind] using hpermitted)
  | find => exact .found
  | findByPort => exact .foundByPort
  | isPermitted peer => exact .permission
  | peerOf number => exact .peer

def Informed (s : TableSession) : Prop :=
  ∀ tuple a, s.get? tuple = some a → s.given.get? tuple = some a.relay

structure Frame (tuple : FiveTuple) (s next : TableSession) : Prop where
  conserves : s.holdings.Conserves next.holdings
  others : ∀ other, other ≠ tuple → next.get? other = s.get? other
  informed : s.Informed → next.Informed

namespace Frame

theorem refl (hs : s.holdings.Sound) : Frame tuple s s := ⟨.refl hs, fun _ _ => rfl, id⟩

theorem trans {third : TableSession} (first : Frame tuple s next) (second : Frame tuple next third) :
    Frame tuple s third where
  conserves := first.conserves.trans second.conserves
  others other hother := (second.others other hother).trans (first.others other hother)
  informed h := second.informed (first.informed h)

theorem withDraws (h : Frame tuple s next) (draws : Draws) :
    Frame tuple s { next with draws := draws } := ⟨h.conserves, h.others, h.informed⟩

theorem put (hs : s.holdings.Sound) (ha : s.get? tuple = some a)
    (hfits : s.holdings.table.Fits tuple b) (hrelay : b.relay = a.relay) :
    Frame tuple s (s.put tuple b) where
  conserves := Holdings.conserves_put hs ha hfits hrelay
  others other hother := by
    rw [get?_put, if_neg hother]
  informed h other c hc := by
    rw [get?_put] at hc
    split at hc
    · next hother =>
      cases hc
      rw [hother, hrelay]
      exact h tuple a ha
    · exact h other c hc

theorem evict (hs : s.holdings.Sound) {chosen : FiveTuple → Allocation → Bool}
    (hchosen : ∀ other b, other ≠ tuple → chosen other b = false) :
    Frame tuple s { s with holdings := (s.holdings.evict chosen).2 } where
  conserves := Holdings.conserves_evict hs chosen
  others other hother := by
    rw [get?, Holdings.get?_evict, get?]
    cases s.holdings.table.allocations.get? other with
    | none => rfl
    | some b => simp [Option.filter, hchosen other b hother]
  informed h other b hb := by
    rw [get?, Holdings.get?_evict, Option.filter_eq_some_iff] at hb
    exact h other b hb.1

theorem dropExpired (hs : s.holdings.Sound) (tuple : FiveTuple) (now : Nat) :
    Frame tuple s { s with holdings := s.holdings.dropExpired tuple now } :=
  evict hs fun other b hother => by simp [hother]

theorem remove (hs : s.holdings.Sound) (tuple : FiveTuple) :
    Frame tuple s { s with holdings := (s.holdings.remove tuple).2 } :=
  evict hs fun other b hother => by simp [hother]

theorem grant (hs : s.holdings.Sound) {pool : PortPool} {draws after : Draws} {port : UInt16}
    (hnone : s.get? tuple = none)
    (hdraw : s.holdings.pool.draw random draws = (some (port, pool), after)) (user : String)
    (lifetime now : Nat) :
    Frame tuple s ⟨s.holdings.grant tuple user port pool lifetime now, s.draws,
      s.given.insert tuple (s.holdings.table.relayIp.withPort port)⟩ where
  conserves := Holdings.conserves_grant hs hnone hdraw user lifetime now
  others other hother := by
    rw [get?, Holdings.get?_grant, if_neg hother]
    rfl
  informed h other b hb := by
    rw [get?, Holdings.get?_grant] at hb
    rw [Dictionary.get?_insert]
    split at hb
    · next hother =>
      cases hb
      rw [if_pos hother]
    · next hother =>
      rw [if_neg hother]
      exact h other b hb

end Frame

theorem Served.frame {request : TableRequest} {result : TableAnswer × TableSession}
    (h : Served random s now tuple request result) (hs : s.holdings.Sound) :
    Frame tuple s result.2 := by
  have hfits {a : Allocation} (ha : s.get? tuple = some a) := hs.wellFormed.fits ha
  cases h with
  | extended hfind =>
    have ha := get?_of_find? hfind
    exact .put hs ha ((hfits ha).extend _) rfl
  | occupied | disowned | untouched | found | foundByPort | permission | peer => exact .refl hs
  | exhausted => exact (Frame.dropExpired hs tuple now).withDraws _
  | created hnone hdraw =>
    have hdrop := Frame.dropExpired hs tuple now
    have hentry : (s.holdings.dropExpired tuple now).table.allocations.get? tuple = none := by
      rw [Holdings.get?_dropExpired, if_pos rfl, hnone]
    exact (hdrop.trans (.grant hdrop.conserves.sound hentry hdraw _ _ now)).withDraws _
  | renewed _ howned =>
    have ha := get?_of_owned howned
    exact .put hs ha ((hfits ha).extend _) rfl
  | deleted => exact .remove hs tuple
  | permitted howned =>
    have ha := get?_of_owned howned
    exact .put hs ha ((hfits ha).permit _ now) rfl
  | bound howned _ hadmits =>
    have ha := get?_of_owned howned
    exact .put hs ha (((hfits ha).storeChannel hadmits).permit _ now) rfl
  | unbound howned _ hchannels =>
    have ha := get?_of_owned howned
    rcases hchannels with rfl | rfl
    · exact .put hs ha (hfits ha) rfl
    · exact .put hs ha ((hfits ha).reapChannels now) rfl
  | touched hfind =>
    have ha := get?_of_find? hfind
    exact .put hs ha ((hfits ha).permit _ now) rfl

theorem frame_serve (hs : s.holdings.Sound) (random : Randomness) (now : Nat) (tuple : FiveTuple)
    (request : TableRequest) : Frame tuple s (s.serve random now tuple request).2 :=
  (serve_spec random s now tuple request).frame hs

theorem conserves_act (hs : s.holdings.Sound) (random : Randomness) (now : Nat) (act : TableAct) :
    s.holdings.Conserves (s.act random now act).holdings := by
  cases act with
  | ask tuple request => exact (frame_serve hs random now tuple request).conserves
  | reap => exact Holdings.conserves_reap hs now

theorem sound_after (hs : s.holdings.Sound) (random : Randomness) (script : Script) :
    (s.after random script).holdings.Sound := by
  induction script generalizing s with
  | nil => exact hs
  | cons step script ih => exact ih (conserves_act hs random step.1 step.2).sound

theorem Informed.reap (h : s.Informed) (now : Nat) : (s.reap now).Informed := by
  intro tuple a ha
  rw [get?, TableSession.reap, Holdings.get?_reap, Holdings.kept_eq_some_iff] at ha
  obtain ⟨b, hb, -, rfl⟩ := ha
  exact h tuple b hb

theorem informed_session (h : Holdings) (draws : Draws) : (h.session draws).Informed := by
  intro tuple a ha
  rw [Holdings.session, Dictionary.get?_map, Option.map_eq_some_iff]
  exact ⟨a, ha, rfl⟩

end TableSession

end TurnRelay

import TurnRelay.Credential
import TurnRelay.Proofs.Message.Reading

namespace TurnRelay

variable {transaction : TransactionId} {raw : Bytes} {signed : Bool} {front back units : List Tlv}
  {tlv : Tlv} {attributes : List Attribute} {a : Attribute} {m : Message} {position : Nat}

theorem AttributeType.ofCode_eq_messageIntegrity_iff {code : UInt16} :
    ofCode code = messageIntegrity ↔ code = messageIntegrity.code :=
  ofCode_eq_iff rfl

theorem Tlv.read_integrity (hcode : tlv.code = AttributeType.messageIntegrity.code)
    (h : tlv.read transaction = .ok a) :
    a = ⟨.messageIntegrity, .raw tlv.value⟩ ∧ tlv.value.length = integritySize := by
  rw [read, AttributeType.ofCode_eq_messageIntegrity_iff.2 hcode] at h
  obtain ⟨value, hvalue, rfl⟩ := map_eq_ok h
  rw [AttributeValue.decode] at hvalue
  obtain ⟨hlength, rfl⟩ := AttributeValue.sized_eq_ok hvalue
  exact ⟨rfl, hlength⟩

theorem Tlv.type_ne_integrity (hcode : tlv.code ≠ AttributeType.messageIntegrity.code)
    (h : tlv.read transaction = .ok a) : a.type ≠ .messageIntegrity := by
  rw [type_of_read h, ne_eq, AttributeType.ofCode_eq_messageIntegrity_iff]
  exact hcode

namespace Message

theorem Reads.fingerprint_of_signed (h : Reads transaction raw signed units attributes)
    (hsigned : signed = true) : ∀ a ∈ attributes, a.type = .fingerprint := by
  induction h with
  | nil => simp
  | stamp _ htype => simpa using htype
  | dropped _ _ _ ih => exact ih rfl
  | kept => cases hsigned

theorem Reads.cons_cases (h : Reads transaction raw false (tlv :: units) attributes) :
    ∃ a rest, tlv.read transaction = .ok a ∧ attributes = a :: rest ∧
      ((a.type = .fingerprint ∧ units = []) ∨
        Reads transaction raw (a.type = .messageIntegrity) units rest) := by
  cases h with
  | stamp hread htype => exact ⟨_, [], hread, rfl, .inl ⟨htype, rfl⟩⟩
  | kept hread _ hrest => exact ⟨_, _, hread, rfl, .inr hrest⟩

theorem Reads.type_ne_integrity (h : Reads transaction raw signed units attributes)
    (hunits : ∀ tlv ∈ units, tlv.code ≠ AttributeType.messageIntegrity.code) :
    ∀ a ∈ attributes, a.type ≠ .messageIntegrity := by
  induction h with
  | nil => simp
  | stamp hread => simpa using Tlv.type_ne_integrity (hunits _ List.mem_cons_self) hread
  | dropped _ _ _ ih => exact ih (List.forall_mem_cons.1 hunits).2
  | kept hread _ _ ih =>
    obtain ⟨hcode, hrest⟩ := List.forall_mem_cons.1 hunits
    exact List.forall_mem_cons.2 ⟨Tlv.type_ne_integrity hcode hread, ih hrest⟩

theorem Reads.signed_split
    (h : Reads transaction raw false (front ++ tlv :: back) attributes)
    (hfront : ∀ other ∈ front, other.code ≠ AttributeType.messageIntegrity.code)
    (hcode : tlv.code = AttributeType.messageIntegrity.code) :
    ∃ kept tail, attributes = kept ++ ⟨.messageIntegrity, .raw tlv.value⟩ :: tail ∧
      front.map (·.read transaction) = kept.map .ok ∧ (∀ a ∈ kept, a.type ≠ .messageIntegrity) ∧
      tlv.value.length = integritySize ∧ ∀ a ∈ tail, a.type = .fingerprint := by
  -- the loop is unsigned all along the front: none of its units switches it over
  induction front generalizing attributes with
  | nil =>
    obtain ⟨a, tail, hread, rfl, hrest⟩ := h.cons_cases
    obtain ⟨rfl, hlength⟩ := Tlv.read_integrity hcode hread
    obtain ⟨htype, -⟩ | hrest := hrest
    · cases htype
    · exact ⟨[], tail, rfl, rfl, by simp, hlength, hrest.fingerprint_of_signed rfl⟩
  | cons other front ih =>
    obtain ⟨hother, hfront⟩ := List.forall_mem_cons.1 hfront
    obtain ⟨a, rest, hread, rfl, hrest⟩ := h.cons_cases
    have htype := Tlv.type_ne_integrity hother hread
    obtain ⟨-, hlast⟩ | hrest := hrest
    · exact absurd hlast (by simp)
    · rw [decide_eq_false htype] at hrest
      obtain ⟨kept, tail, rfl, hkept, hunsigned, hlength, htail⟩ := ih hrest hfront
      exact ⟨a :: kept, tail, rfl, by rw [List.map_cons, List.map_cons, hread, hkept],
        List.forall_mem_cons.2 ⟨htype, hunsigned⟩, hlength, htail⟩

theorem Layout.split {code : UInt16} (h : Layout raw m units) (hfirst : FirstUnit code raw position tlv) :
    ∃ front back, units = front ++ tlv :: back ∧
      position = headerSize + (Tlv.encodeAll front).length ∧ ∀ other ∈ front, other.code ≠ code := by
  obtain ⟨front, rest, hbody, hposition, hfront, htlv, -⟩ := hfirst
  rw [h.drop_eq, ← List.append_assoc] at hbody
  have hopening : ∀ other ∈ front ++ [tlv], other.Intact :=
    List.forall_mem_append.2 ⟨fun other hother => (hfront other hother).1, by simpa using htlv⟩
  have hopens : Tlv.encodeAll units = Tlv.encodeAll (front ++ [tlv]) ++ rest := by simpa using hbody
  obtain ⟨back, hunits, -⟩ := Tlv.encodeAll_eq_append h.intact hopening hopens
  exact ⟨front, back, by simpa using hunits, hposition, fun other hother => (hfront other hother).2⟩

theorem Layout.exists_firstUnit {code : UInt16} (h : Layout raw m units)
    (hcode : ∃ tlv ∈ units, tlv.code = code) : ∃ position tlv, FirstUnit code raw position tlv := by
  have hsome : (units.find? (·.code == code)).isSome := List.find?_isSome.2 (by simpa using hcode)
  obtain ⟨tlv, hfind⟩ := Option.isSome_iff_exists.1 hsome
  obtain ⟨htlv, front, back, rfl, hfront⟩ := List.find?_eq_some_iff_append.1 hfind
  refine ⟨_, tlv, front, Tlv.encodeAll back, ?_, rfl, ?_, h.intact tlv (by simp), by simpa using htlv⟩
  · rw [h.drop_eq]
    simp
  · intro other hother
    exact ⟨h.intact other (by simp [hother]), by simpa using hfront other hother⟩

theorem Layout.find?_integrity_eq_none (h : Layout raw m units)
    (hunits : ∀ tlv ∈ units, tlv.code ≠ AttributeType.messageIntegrity.code) :
    m.find? .messageIntegrity = none := by
  rw [find?, Option.map_eq_none_iff, List.find?_eq_none]
  simpa using h.reads.type_ne_integrity hunits

theorem Layout.find?_integrity (h : Layout raw m units)
    (hfirst : FirstUnit AttributeType.messageIntegrity.code raw position tlv) :
    m.find? .messageIntegrity = some (.raw tlv.value) ∧ tlv.value.length = integritySize := by
  obtain ⟨front, back, rfl, -, hfront⟩ := h.split hfirst
  obtain ⟨kept, tail, hattributes, -, hkept, hlength, -⟩ := h.reads.signed_split hfront hfirst.code_eq
  have hpassed : kept.find? (·.type = .messageIntegrity) = none := by
    rw [List.find?_eq_none]
    simpa using hkept
  refine ⟨?_, hlength⟩
  rw [find?, hattributes, List.find?_append, hpassed]
  simp

end Message

theorem FirstUnit.verifyIntegrity_eq (h : FirstUnit AttributeType.messageIntegrity.code raw position tlv)
    (hlength : tlv.value.length = integritySize) (key : Bytes) :
    verifyIntegrity raw key =
      if Hmac.sha1 key (integrityCover raw position) = tlv.value then .ok ()
      else .error .integrityFailed := by
  have hroom : ¬ raw.length < position + 4 + integritySize := by
    have hle := h.le_length
    omega
  have hvalue := h.value_eq
  rw [hlength] at hvalue
  rw [verifyIntegrity, h.find]
  simp only [if_neg hroom, hvalue]

theorem Message.Layout.exists_integrity (h : m.Layout raw units) (hintegrity : m.hasIntegrity) :
    ∃ position tlv, FirstUnit AttributeType.messageIntegrity.code raw position tlv := by
  by_cases hcode : ∃ tlv ∈ units, tlv.code = AttributeType.messageIntegrity.code
  · exact h.exists_firstUnit hcode
  · have hnone := h.find?_integrity_eq_none fun tlv htlv heq => hcode ⟨tlv, htlv, heq⟩
    simp [hasIntegrity, hnone] at hintegrity

theorem Message.Layout.hasIntegrity (h : m.Layout raw units) (htlv : tlv ∈ units)
    (hcode : tlv.code = AttributeType.messageIntegrity.code) : m.hasIntegrity := by
  obtain ⟨position, first, hfirst⟩ := h.exists_firstUnit ⟨tlv, htlv, hcode⟩
  simp [Message.hasIntegrity, (h.find?_integrity hfirst).1]

namespace Credential

variable {realm name : String} {passwordOf : String → Option String} {credential : Credential}

theorem confirm_eq_ok_iff {password : Option String}
    (hfirst : FirstUnit AttributeType.messageIntegrity.code raw position tlv)
    (hlength : tlv.value.length = integritySize) :
    confirm realm name raw password = .ok credential ↔
      credential.username = name ∧ ∃ secret, password = some secret ∧
        credential.key = longTermKey name realm secret ∧
        Hmac.sha1 credential.key (integrityCover raw position) = tlv.value := by
  cases password with
  | none => simp [confirm]
  | some secret =>
    rw [confirm, hfirst.verifyIntegrity_eq hlength]
    constructor
    · intro h
      split at h
      · next hhash =>
        cases h
        exact ⟨rfl, secret, rfl, rfl, hhash⟩
      · cases h
    · rintro ⟨rfl, _, ⟨⟩, hkey, hhash⟩
      rw [← hkey, if_pos hhash]
      rfl

theorem eq_of_confirm_error {password : Option String} {e : PacketError}
    (hfirst : FirstUnit AttributeType.messageIntegrity.code raw position tlv)
    (hlength : tlv.value.length = integritySize) (h : confirm realm name raw password = .error e) :
    e = .integrityFailed := by
  cases password with
  | none => cases h; rfl
  | some secret =>
    rw [confirm, hfirst.verifyIntegrity_eq hlength] at h
    split at h
    · cases h
    · cases h; rfl

theorem eq_of_verify_error (hlayout : m.Layout raw units) {e : PacketError}
    (h : verify realm passwordOf m raw = .error e) :
    e = if m.hasIntegrity then .integrityFailed else .integrityMissing := by
  unfold verify at h
  cases hclaimant : claimant realm m with
  | error other =>
    rw [hclaimant] at h
    cases h
    exact eq_of_claimant_error hclaimant
  | ok name =>
    obtain ⟨hintegrity, -, -⟩ := claimant_eq_ok_iff.1 hclaimant
    obtain ⟨position, tlv, hfirst⟩ := hlayout.exists_integrity hintegrity
    obtain ⟨-, hlength⟩ := hlayout.find?_integrity hfirst
    rw [hclaimant] at h
    rw [if_pos hintegrity]
    exact eq_of_confirm_error hfirst hlength h

end Credential

namespace Sample

def renewal : Message :=
  ⟨⟨.refresh, .request⟩, 7, [⟨.username, .username "alice"⟩, ⟨.realm, .realm "example.org"⟩,
    ⟨.lifetime, .lifetime 600⟩]⟩

def renewalKey : Bytes := longTermKey "alice" "example.org" "secret"

def passwords (_ : TransportAddress) (name : String) : Option String :=
  if name = "alice" then some "secret" else none

def signedRenewal : Message :=
  { renewal with
    attributes := renewal.attributes ++
      [⟨.messageIntegrity, .raw (renewal.integrityOf renewalKey renewal.body)⟩] }

def signedBytes : Bytes := (renewal.encode (some renewalKey) false).toOption.getD []

theorem eq_ok_of_toOption {α : Type} {x : Except PacketError α} {a : α} (h : x.toOption = some a) :
    x = .ok a := by
  cases x with
  | error e => cases h
  | ok b => exact congrArg _ (Option.some.inj h)

theorem decode_signedBytes : Message.decode signedBytes = .ok signedRenewal :=
  eq_ok_of_toOption (by decide +kernel)

end Sample

end TurnRelay

import TurnRelay.Proofs.Message.Reading
import TurnRelay.Proofs.Message.Validity

/-!
The grammar of messages, without reference to the reader. Main statement: reading accepts exactly the byte
strings of the grammar, gives what their units hold up to the hash, and refuses every other byte string
with the error of the first check that it fails.
-/

namespace TurnRelay

namespace Tlv

def Valid (tlv : Tlv) : Prop := (AttributeType.ofCode tlv.code).form.Admits tlv.value

def IsIntegrity (tlv : Tlv) : Prop := tlv.code = AttributeType.messageIntegrity.code

def IsFingerprint (tlv : Tlv) : Prop := tlv.code = AttributeType.fingerprint.code

instance (tlv : Tlv) : Decidable tlv.IsIntegrity := inferInstanceAs (Decidable (_ = _))

instance (tlv : Tlv) : Decidable tlv.IsFingerprint := inferInstanceAs (Decidable (_ = _))

/-- The units up to the first hash, and behind it the fingerprint. -/
def heeded (units : List Tlv) : List Tlv :=
  let signed := units.findIdx (·.IsIntegrity) + 1
  units.take signed ++ (units.drop signed).filter (·.IsFingerprint)

end Tlv

namespace Message

def Opens (raw : Bytes) : Prop := headerSize ≤ raw.length ∧ ∀ first ∈ raw.head?, first < 0x40

def HasCookie (raw : Bytes) : Prop := (raw.drop 4).take 4 = bigEndian 4 magicCookie.toNat

def HasLength (raw : Bytes) : Prop :=
  ofBigEndian ((raw.drop 2).take 2) % 4 = 0 ∧
    (raw.drop headerSize).length = ofBigEndian ((raw.drop 2).take 2)

def typeIn (raw : Bytes) : MessageType := .ofWire (.ofNat (ofBigEndian (raw.take 2)))

def transactionIn (raw : Bytes) : TransactionId := .ofNat 96 (ofBigEndian ((raw.drop 8).take 12))

def Sums (raw : Bytes) (tlv : Tlv) : Prop :=
  tlv.value = bigEndian 4 (fingerprint (before raw tlv.encode)).toNat

/-- No unit but the last is a fingerprint, and that one has the checksum. -/
def Stamped (raw : Bytes) (units : List Tlv) : Prop :=
  ∀ front tlv back, units = front ++ tlv :: back → tlv.IsFingerprint → back = [] ∧ Sums raw tlv

/-- `raw` is a message with `units` behind its header. -/
structure Grammatical (raw : Bytes) (units : List Tlv) : Prop where
  opens : Opens raw
  cookie : HasCookie raw
  length : HasLength raw
  body : raw.drop headerSize = Tlv.encodeAll units
  intact : ∀ tlv ∈ units, tlv.Intact
  valid : ∀ tlv ∈ units, tlv.Valid
  stamped : Stamped raw units

inductive UnitFault (raw rest : Bytes) : PacketError → Prop
  | cut : rest ≠ [] → (∀ tlv after, Tlv.Intact tlv → rest ≠ tlv.encode ++ after) →
      UnitFault raw rest .invalidInput
  | invalid {tlv : Tlv} {after : Bytes} {e : PacketError} : rest = tlv.encode ++ after → tlv.Intact →
      ValueForm.Refuses tlv.value (AttributeType.ofCode tlv.code).form e → UnitFault raw rest e
  | early {tlv : Tlv} {after : Bytes} : rest = tlv.encode ++ after → tlv.Intact → tlv.Valid →
      tlv.IsFingerprint → after ≠ [] → UnitFault raw rest .invalidInput
  | mismatch {tlv : Tlv} : rest = tlv.encode → tlv.Intact → tlv.Valid → tlv.IsFingerprint →
      ¬ Sums raw tlv → UnitFault raw rest .integrityFailed

/-- The error of the first check that `raw` fails: the start, the cookie, the length field, and then the
units one by one. -/
inductive FirstFault (raw : Bytes) : PacketError → Prop
  | start : ¬ Opens raw → FirstFault raw .invalidInput
  | cookie : Opens raw → ¬ HasCookie raw → FirstFault raw .cookieMismatch
  | length : Opens raw → HasCookie raw → ¬ HasLength raw → FirstFault raw .invalidInput
  | unit {front : List Tlv} {rest : Bytes} {e : PacketError} : Opens raw → HasCookie raw → HasLength raw →
      raw.drop headerSize = Tlv.encodeAll front ++ rest →
      (∀ tlv ∈ front, tlv.Intact ∧ tlv.Valid ∧ ¬ tlv.IsFingerprint) → UnitFault raw rest e →
      FirstFault raw e

end Message

/-! ## Units -/

namespace Tlv

variable {tlv : Tlv} {units : List Tlv} {transaction : TransactionId} {a : Attribute} {e : PacketError}

theorem heeded_nil : heeded [] = [] := rfl

theorem heeded_cons (tlv : Tlv) (units : List Tlv) :
    heeded (tlv :: units) =
      tlv :: if tlv.IsIntegrity then units.filter (·.IsFingerprint) else heeded units := by
  by_cases h : tlv.IsIntegrity
  · simp [heeded, List.findIdx_cons, h]
  · simp [heeded, List.findIdx_cons, h]

theorem governs_read (transaction : TransactionId) (tlv : Tlv) :
    ValueForm.Governs (AttributeType.ofCode tlv.code).form tlv.value (tlv.read transaction) :=
  (AttributeValue.governs_decode transaction _ tlv.value).map _

theorem exists_read_iff (transaction : TransactionId) (tlv : Tlv) :
    (∃ a, tlv.read transaction = .ok a) ↔ tlv.Valid :=
  (tlv.governs_read transaction).ok_iff

theorem valid_of_read (h : tlv.read transaction = .ok a) : tlv.Valid :=
  (exists_read_iff transaction tlv).1 ⟨a, h⟩

theorem type_eq_fingerprint_iff (h : tlv.read transaction = .ok a) :
    a.type = .fingerprint ↔ tlv.IsFingerprint := by
  rw [type_of_read h]
  exact AttributeType.ofCode_eq_iff rfl

theorem type_eq_integrity_iff (h : tlv.read transaction = .ok a) :
    a.type = .messageIntegrity ↔ tlv.IsIntegrity := by
  rw [type_of_read h]
  exact AttributeType.ofCode_eq_iff rfl

theorem IsFingerprint.not_isIntegrity (h : tlv.IsFingerprint) : ¬ tlv.IsIntegrity := by
  intro hintegrity
  cases h.symm.trans hintegrity

theorem IsFingerprint.length_value (h : tlv.IsFingerprint) (hvalid : tlv.Valid) : tlv.value.length = 4 := by
  rw [Valid, show tlv.code = _ from h] at hvalid
  exact hvalid

end Tlv

namespace Message

variable {transaction : TransactionId} {raw rest bytes : Bytes} {signed : Bool} {front units : List Tlv}
  {tlv : Tlv} {a : Attribute} {attributes : List Attribute} {e : PacketError}

theorem sums_iff (h : tlv.value.length = 4) :
    Sums raw tlv ↔ fingerprint (before raw tlv.encode) = .ofNat 32 (ofBigEndian tlv.value) := by
  rw [Sums]
  generalize fingerprint (before raw tlv.encode) = sum
  constructor
  · intro hvalue
    rw [hvalue, ofBigEndian_bigEndian_of_lt sum.isLt, BitVec.ofNat_toNat, BitVec.setWidth_eq]
  · rintro rfl
    have hlt : ofBigEndian tlv.value < 2 ^ 32 := ofBigEndian_lt (Nat.le_of_eq h)
    rw [BitVec.toNat_ofNat, Nat.mod_eq_of_lt hlt, bigEndian_ofBigEndian_of_length h]

theorem Stamped.tail (h : Stamped raw (tlv :: units)) : Stamped raw units := fun front other back heq =>
  h (tlv :: front) other back (congrArg (tlv :: ·) heq)

theorem stamped_cons (hfingerprint : ¬ tlv.IsFingerprint) (h : Stamped raw units) :
    Stamped raw (tlv :: units) := by
  intro front other back heq hother
  cases front with
  | nil =>
    cases heq
    exact absurd hother hfingerprint
  | cons first front =>
    cases heq
    exact h front other back rfl hother

def keptUnits (signed : Bool) (units : List Tlv) : List Tlv :=
  if signed then units.filter (·.IsFingerprint) else Tlv.heeded units

theorem keptUnits_cons (tlv : Tlv) (units : List Tlv) :
    keptUnits false (tlv :: units) = tlv :: keptUnits tlv.IsIntegrity units := by
  simp only [keptUnits, Bool.false_eq_true, if_false, Tlv.heeded_cons, decide_eq_true_eq]

theorem Reads.valid (h : Reads transaction raw signed units attributes) : ∀ tlv ∈ units, tlv.Valid := by
  induction h with
  | nil => simp
  | stamp hread => simpa using Tlv.valid_of_read hread
  | dropped hread _ _ ih => exact List.forall_mem_cons.2 ⟨Tlv.valid_of_read hread, ih⟩
  | kept hread _ _ ih => exact List.forall_mem_cons.2 ⟨Tlv.valid_of_read hread, ih⟩

theorem Reads.stamped (h : Reads transaction raw signed units attributes) : Stamped raw units := by
  induction h with
  | nil =>
    intro front tlv back heq
    simp at heq
  | stamp hread htype hsum =>
    intro front other back heq hother
    cases front with
    | nil =>
      cases heq
      exact ⟨rfl, (sums_iff (hother.length_value (Tlv.valid_of_read hread))).2 hsum⟩
    | cons first front => simp at heq
  | dropped hread htype _ ih => exact stamped_cons (mt (Tlv.type_eq_fingerprint_iff hread).2 htype) ih
  | kept hread htype _ ih => exact stamped_cons (mt (Tlv.type_eq_fingerprint_iff hread).2 htype) ih

theorem Reads.keptUnits_eq (h : Reads transaction raw signed units attributes) :
    (keptUnits signed units).map (·.read transaction) = attributes.map Except.ok := by
  induction h with
  | @nil signed => cases signed <;> rfl
  | @stamp signed tlv a hread htype _ =>
    have hfingerprint := (Tlv.type_eq_fingerprint_iff hread).1 htype
    cases signed <;> simp [keptUnits, Tlv.heeded_cons, Tlv.heeded_nil, hfingerprint, hfingerprint.not_isIntegrity, hread]
  | dropped hread htype _ ih =>
    have hfingerprint := mt (Tlv.type_eq_fingerprint_iff hread).2 htype
    simpa [keptUnits, hfingerprint] using ih
  | kept hread htype _ ih =>
    rw [keptUnits_cons, List.map_cons, List.map_cons, hread]
    simp only [Tlv.type_eq_integrity_iff hread] at ih
    rw [ih]

theorem exists_reads (transaction : TransactionId) (signed : Bool) (hvalid : ∀ tlv ∈ units, tlv.Valid)
    (hstamped : Stamped raw units) : ∃ attributes, Reads transaction raw signed units attributes := by
  induction units generalizing signed with
  | nil => exact ⟨[], .nil⟩
  | cons tlv units ih =>
    obtain ⟨hhead, htail⟩ := List.forall_mem_cons.1 hvalid
    obtain ⟨a, hread⟩ := (Tlv.exists_read_iff transaction tlv).2 hhead
    by_cases htype : a.type = .fingerprint
    · have hfingerprint := (Tlv.type_eq_fingerprint_iff hread).1 htype
      obtain ⟨rfl, hsums⟩ := hstamped [] tlv units rfl hfingerprint
      exact ⟨[a], .stamp hread htype ((sums_iff (hfingerprint.length_value hhead)).1 hsums)⟩
    · cases signed with
      | true =>
        obtain ⟨attributes, hreads⟩ := ih true htail hstamped.tail
        exact ⟨attributes, .dropped hread htype hreads⟩
      | false =>
        obtain ⟨attributes, hreads⟩ := ih (a.type = .messageIntegrity) htail hstamped.tail
        exact ⟨a :: attributes, .kept hread htype hreads⟩

theorem reads_iff : Reads transaction raw signed units attributes ↔
    (∀ tlv ∈ units, tlv.Valid) ∧ Stamped raw units ∧
      (keptUnits signed units).map (·.read transaction) = attributes.map Except.ok := by
  constructor
  · exact fun h => ⟨h.valid, h.stamped, h.keptUnits_eq⟩
  · rintro ⟨hvalid, hstamped, hkept⟩
    obtain ⟨others, hreads⟩ := exists_reads transaction signed hvalid hstamped
    have hsame : others.map Except.ok = attributes.map (Except.ok (ε := PacketError)) :=
      hreads.keptUnits_eq.symm.trans hkept
    rw [List.map_inj_right fun _ _ => Except.ok.inj] at hsame
    exact hsame ▸ hreads

/-! ## The loop over the units -/

theorem decodeAttributes_eq_ok_iff : decodeAttributes transaction raw signed bytes = .ok attributes ↔
    ∃ units, bytes = Tlv.encodeAll units ∧ (∀ tlv ∈ units, tlv.Intact) ∧
      Reads transaction raw signed units attributes :=
  ⟨reads_of_decodeAttributes, fun ⟨_, hbytes, hintact, hreads⟩ => hbytes ▸ hreads.decodeAttributes_eq hintact⟩

theorem decodeAttributes_cons_of_valid (hintact : tlv.Intact) (hvalid : tlv.Valid)
    (hfingerprint : ¬ tlv.IsFingerprint) :
    decodeAttributes transaction raw signed (tlv.encode ++ rest) = .error e ↔
      decodeAttributes transaction raw (signed || tlv.IsIntegrity) rest = .error e := by
  obtain ⟨a, hread⟩ := (Tlv.exists_read_iff transaction tlv).2 hvalid
  have htype : a.type ≠ .fingerprint := mt (Tlv.type_eq_fingerprint_iff hread).1 hfingerprint
  rw [decodeAttributes_cons hintact, hread]
  simp only [bind, Except.bind, if_neg htype, Tlv.type_eq_integrity_iff hread]
  cases signed with
  | true => simp
  | false =>
    rw [if_neg Bool.false_ne_true, Bool.false_or]
    cases decodeAttributes transaction raw tlv.IsIntegrity rest <;> simp [pure, Except.pure]

theorem UnitFault.decodeAttributes_eq (h : UnitFault raw rest e) :
    decodeAttributes transaction raw signed rest = .error e := by
  cases h with
  | cut hrest hnone =>
    have hnext : Tlv.next? rest = none := by
      rw [Option.eq_none_iff_forall_ne_some]
      rintro ⟨tlv, after⟩ hnext
      obtain ⟨heq, hintact⟩ := Tlv.eq_encode_of_next? hnext
      exact hnone tlv after hintact heq
    rw [decodeAttributes, if_neg (by simpa using hrest)]
    split
    · rfl
    · next hsome => rw [hnext] at hsome; cases hsome
  | @invalid tlv after _ heq hintact hrefuses =>
    rw [heq, decodeAttributes_cons hintact, (tlv.governs_read transaction).error_iff.2 hrefuses]
    rfl
  | @early tlv after heq hintact hvalid hfingerprint hafter =>
    obtain ⟨a, hread⟩ := (Tlv.exists_read_iff transaction tlv).2 hvalid
    rw [heq, decodeAttributes_cons hintact, hread]
    simp [bind, Except.bind, (Tlv.type_eq_fingerprint_iff hread).2 hfingerprint, hafter]
  | @mismatch tlv heq hintact hvalid hfingerprint hsums =>
    obtain ⟨a, hread⟩ := (Tlv.exists_read_iff transaction tlv).2 hvalid
    rw [sums_iff (hfingerprint.length_value hvalid)] at hsums
    rw [heq, ← List.append_nil tlv.encode, decodeAttributes_cons hintact, hread, List.append_nil]
    simp [bind, Except.bind, (Tlv.type_eq_fingerprint_iff hread).2 hfingerprint, hsums]

theorem unitFault_or_of_cons (hintact : tlv.Intact)
    (h : decodeAttributes transaction raw signed (tlv.encode ++ rest) = .error e) :
    UnitFault raw (tlv.encode ++ rest) e ∨ tlv.Valid ∧ ¬ tlv.IsFingerprint := by
  cases hread : tlv.read transaction with
  | error cause =>
    rw [decodeAttributes_cons hintact, hread] at h
    cases h
    exact .inl (.invalid rfl hintact ((tlv.governs_read transaction).error_iff.1 hread))
  | ok a =>
    have hvalid := Tlv.valid_of_read hread
    by_cases hfingerprint : tlv.IsFingerprint
    · rw [decodeAttributes_cons hintact, hread] at h
      simp only [bind, Except.bind, (Tlv.type_eq_fingerprint_iff hread).2 hfingerprint, if_true] at h
      split at h
      · next hrest =>
        cases h
        exact .inl (.early rfl hintact hvalid hfingerprint (by simpa using hrest))
      · next hrest =>
        obtain rfl : rest = [] := by simpa using hrest
        rw [List.append_nil] at h ⊢
        split at h
        · cases h
        · next hsum =>
          cases h
          have hsums := mt (sums_iff (hfingerprint.length_value hvalid)).1 hsum
          exact .inl (.mismatch rfl hintact hvalid hfingerprint hsums)
    · exact .inr ⟨hvalid, hfingerprint⟩

theorem decodeAttributes_eq_error_iff : decodeAttributes transaction raw signed bytes = .error e ↔
    ∃ front rest, bytes = Tlv.encodeAll front ++ rest ∧
      (∀ tlv ∈ front, tlv.Intact ∧ tlv.Valid ∧ ¬ tlv.IsFingerprint) ∧ UnitFault raw rest e := by
  constructor
  · intro h
    fun_induction decodeAttributes transaction raw signed bytes with
    | case1 => cases h
    | case2 signed bytes hfilled hnext =>
      cases h
      refine ⟨[], bytes, rfl, by simp, .cut (by simpa using hfilled) fun tlv after hintact heq => ?_⟩
      rw [heq, Tlv.next?_encode hintact] at hnext
      cases hnext
    | case3 signed bytes _ tlv rest hnext ihDropped ihKept =>
      obtain ⟨rfl, hintact⟩ := Tlv.eq_encode_of_next? hnext
      have h := (decodeAttributes_cons hintact rest).trans h
      obtain hfault | ⟨hvalid, hfingerprint⟩ := unitFault_or_of_cons hintact h
      · exact ⟨[], _, rfl, by simp, hfault⟩
      · rw [decodeAttributes_cons_of_valid hintact hvalid hfingerprint] at h
        obtain ⟨a, hread⟩ := (Tlv.exists_read_iff transaction tlv).2 hvalid
        obtain ⟨front, back, rfl, hfront, hfault⟩ : ∃ front back, rest = Tlv.encodeAll front ++ back ∧
            (∀ tlv ∈ front, tlv.Intact ∧ tlv.Valid ∧ ¬ tlv.IsFingerprint) ∧ UnitFault raw back e := by
          cases signed with
          | true => exact ihDropped h
          | false =>
            refine ihKept a ?_
            simpa only [Bool.false_or, Tlv.type_eq_integrity_iff hread] using h
        exact ⟨tlv :: front, back, by simp, List.forall_mem_cons.2 ⟨⟨hintact, hvalid, hfingerprint⟩, hfront⟩,
          hfault⟩
  · rintro ⟨front, rest, rfl, hfront, hfault⟩
    induction front generalizing signed with
    | nil => exact hfault.decodeAttributes_eq
    | cons tlv front ih =>
      obtain ⟨⟨hintact, hvalid, hfingerprint⟩, hfront⟩ := List.forall_mem_cons.1 hfront
      rw [Tlv.encodeAll_cons, List.append_assoc, decodeAttributes_cons_of_valid hintact hvalid hfingerprint]
      exact ih hfront

/-! ## The header -/

theorem opens_iff : Opens raw ↔ ¬ (raw.length < headerSize ∨ 0x4000 ≤ ofBigEndian (raw.take 2)) := by
  match raw with
  | [] | [_] => simp [Opens, headerSize]
  | first :: second :: rest =>
    have hfirst : first < 0x40 ↔ first.toNat < 64 := UInt8.lt_iff_toNat_lt
    have htype : ofBigEndian ((first :: second :: rest).take 2) = first.toNat * 256 + second.toNat := by
      simp [ofBigEndian]
    have hsecond := second.toNat_lt
    simp only [Opens, List.head?_cons, Option.mem_some_iff, forall_eq', hfirst, htype]
    omega

theorem hasCookie_iff (h : Opens raw) :
    HasCookie raw ↔ ofBigEndian ((raw.drop 4).take 4) = magicCookie.toNat := by
  have hlength : ((raw.drop 4).take 4).length = 4 := by
    have := h.1
    simp only [headerSize] at this
    simp only [List.length_take, List.length_drop]
    omega
  constructor
  · intro hcookie
    rw [hcookie, ofBigEndian_bigEndian_of_lt magicCookie.isLt]
  · intro hcookie
    rw [HasCookie, ← hcookie, bigEndian_ofBigEndian_of_length hlength]

theorem hasLength_iff : HasLength raw ↔ ¬ (ofBigEndian ((raw.drop 2).take 2) % 4 ≠ 0 ∨
    (raw.drop headerSize).length ≠ ofBigEndian ((raw.drop 2).take 2)) := by
  simp [HasLength]

theorem decode_of_header (hopens : Opens raw) (hcookie : HasCookie raw) (hlength : HasLength raw) :
    decode raw = (decodeAttributes (transactionIn raw) raw false (raw.drop headerSize)).map
      fun attributes => ⟨typeIn raw, transactionIn raw, attributes⟩ := by
  simp only [decode, if_neg (opens_iff.1 hopens), (hasCookie_iff hopens).1 hcookie, ne_eq, not_true_eq_false,
    if_false, if_neg (hasLength_iff.1 hlength)]
  rfl

theorem decode_of_not_opens (h : ¬ Opens raw) : decode raw = .error .invalidInput := by
  simp only [decode, if_pos (Classical.not_not.1 (mt opens_iff.2 h))]

theorem decode_of_not_hasCookie (hopens : Opens raw) (h : ¬ HasCookie raw) :
    decode raw = .error .cookieMismatch := by
  simp only [decode, if_neg (opens_iff.1 hopens), ne_eq, mt (hasCookie_iff hopens).2 h, not_false_eq_true,
    if_true]

theorem decode_of_not_hasLength (hopens : Opens raw) (hcookie : HasCookie raw) (h : ¬ HasLength raw) :
    decode raw = .error .invalidInput := by
  simp only [decode, if_neg (opens_iff.1 hopens), (hasCookie_iff hopens).1 hcookie, ne_eq, not_true_eq_false,
    if_false]
  exact if_pos (Classical.not_not.1 (mt hasLength_iff.2 h))

theorem header_of_decode {m : Message} (h : decode raw = .ok m) :
    Opens raw ∧ HasCookie raw ∧ HasLength raw := by
  by_cases hopens : Opens raw
  · by_cases hcookie : HasCookie raw
    · by_cases hlength : HasLength raw
      · exact ⟨hopens, hcookie, hlength⟩
      · cases (decode_of_not_hasLength hopens hcookie hlength).symm.trans h
    · cases (decode_of_not_hasCookie hopens hcookie).symm.trans h
  · cases (decode_of_not_opens hopens).symm.trans h

theorem grammatical_of_decode {m : Message} (h : decode raw = .ok m) :
    ∃ units, Grammatical raw units ∧ m.type = typeIn raw ∧ m.transaction = transactionIn raw ∧
      (Tlv.heeded units).map (·.read m.transaction) = m.attributes.map .ok := by
  obtain ⟨hopens, hcookie, hlength⟩ := header_of_decode h
  rw [decode_of_header hopens hcookie hlength] at h
  obtain ⟨attributes, hattributes, rfl⟩ := map_eq_ok h
  obtain ⟨units, hbody, hintact, hreads⟩ := decodeAttributes_eq_ok_iff.1 hattributes
  obtain ⟨hvalid, hstamped, hkept⟩ := reads_iff.1 hreads
  exact ⟨units, ⟨hopens, hcookie, hlength, hbody, hintact, hvalid, hstamped⟩, rfl, rfl, hkept⟩

theorem decode_eq_error_iff : decode raw = .error e ↔ FirstFault raw e := by
  constructor
  · intro h
    by_cases hopens : Opens raw
    · by_cases hcookie : HasCookie raw
      · by_cases hlength : HasLength raw
        · rw [decode_of_header hopens hcookie hlength] at h
          cases hattributes : decodeAttributes (transactionIn raw) raw false (raw.drop headerSize) with
          | ok attributes => rw [hattributes] at h; cases h
          | error cause =>
            rw [hattributes] at h
            cases h
            obtain ⟨front, rest, hbody, hfront, hfault⟩ := decodeAttributes_eq_error_iff.1 hattributes
            exact .unit hopens hcookie hlength hbody hfront hfault
        · cases (decode_of_not_hasLength hopens hcookie hlength).symm.trans h
          exact .length hopens hcookie hlength
      · cases (decode_of_not_hasCookie hopens hcookie).symm.trans h
        exact .cookie hopens hcookie
    · cases (decode_of_not_opens hopens).symm.trans h
      exact .start hopens
  · intro h
    cases h with
    | start hopens => exact decode_of_not_opens hopens
    | cookie hopens hcookie => exact decode_of_not_hasCookie hopens hcookie
    | length hopens hcookie hlength => exact decode_of_not_hasLength hopens hcookie hlength
    | unit hopens hcookie hlength hbody hfront hfault =>
      rw [decode_of_header hopens hcookie hlength,
        decodeAttributes_eq_error_iff.2 ⟨_, _, hbody, hfront, hfault⟩]
      rfl

theorem UnitFault.ne_fatal (h : UnitFault raw rest e) : e ≠ .fatal := by
  cases h with
  | cut | early | mismatch => exact PacketError.noConfusion
  | invalid _ _ hrefuses => exact hrefuses.ne_fatal

theorem FirstFault.ne_fatal (h : FirstFault raw e) : e ≠ .fatal := by
  cases h with
  | start | cookie | length => exact PacketError.noConfusion
  | unit _ _ _ _ _ hfault => exact hfault.ne_fatal

end Message

end TurnRelay

import TurnRelay.Proofs.Message.Values

namespace TurnRelay

def Utf8.IsText (data : Bytes) : Prop := ∃ text, encode text = data

theorem Utf8.not_isText_of_decode? {data : Bytes} (h : decode? data = none) : ¬ IsText data := by
  rintro ⟨text, rfl⟩
  rw [decode?_encode] at h
  cases h

inductive ValueForm
  | address
  | text
  | errorCode
  | codes
  | sized (size : Nat)
  | free

def AttributeType.form : AttributeType → ValueForm
  | .mappedAddress | .xorMappedAddress | .xorPeerAddress | .xorRelayedAddress | .responseOrigin => .address
  | .username | .realm | .nonce | .software => .text
  | .errorCode => .errorCode
  | .unknownAttributes => .codes
  | .channelNumber | .lifetime | .requestedTransport | .requestedAddressFamily | .fingerprint => .sized 4
  | .messageIntegrity => .sized integritySize
  | .data | .evenPort | .dontFragment | .reservationToken | .other _ => .free

namespace ValueForm

def Admits : ValueForm → Bytes → Prop
  | address, data => data[1]? = some 1 ∧ data.length = 8 ∨ data[1]? = some 2 ∧ data.length = 20
  | text, data => Utf8.IsText data
  | errorCode, data => 4 ≤ data.length ∧ Utf8.IsText (data.drop 4)
  | codes, data => data.length % 2 = 0
  | sized size, data => data.length = size
  | free, _ => True

inductive Refuses (data : Bytes) : ValueForm → PacketError → Prop
  | addressHead : data.length < 4 → Refuses data address .invalidInput
  | addressFamily {family : UInt8} : 4 ≤ data.length → data[1]? = some family → family ≠ 1 → family ≠ 2 →
      Refuses data address .unsupportedFamily
  | addressV4 : 4 ≤ data.length → data[1]? = some 1 → data.length ≠ 8 → Refuses data address .invalidInput
  | addressV6 : 4 ≤ data.length → data[1]? = some 2 → data.length ≠ 20 → Refuses data address .invalidInput
  | text : ¬ Utf8.IsText data → Refuses data text .invalidText
  | errorCodeHead : data.length < 4 → Refuses data errorCode .invalidInput
  | errorCodeReason : 4 ≤ data.length → ¬ Utf8.IsText (data.drop 4) → Refuses data errorCode .invalidText
  | codes : data.length % 2 ≠ 0 → Refuses data codes .invalidInput
  | sized {size : Nat} : data.length ≠ size → Refuses data (sized size) .invalidInput

variable {form : ValueForm} {data : Bytes} {e e' : PacketError}

theorem Refuses.not_admits (h : Refuses data form e) : ¬ form.Admits data := by
  cases h with
  | addressHead hshort => simp only [Admits]; omega
  | addressFamily _ hfamily hv4 hv6 => simp [Admits, hfamily, hv4, hv6]
  | addressV4 _ hfamily hsize => simp [Admits, hfamily, hsize]
  | addressV6 _ hfamily hsize => simp [Admits, hfamily, hsize]
  | text htext => exact htext
  | errorCodeHead hshort => simp only [Admits]; omega
  | errorCodeReason _ htext => exact fun h => htext h.2
  | codes hodd => exact hodd
  | sized hsize => exact hsize

theorem Refuses.unique (h : Refuses data form e) (h' : Refuses data form e') : e = e' := by
  cases h <;> cases h' <;> first | rfl | omega | simp_all

theorem Refuses.ne_fatal (h : Refuses data form e) : e ≠ .fatal := by
  cases h <;> exact PacketError.noConfusion

inductive Governs {α : Type} (form : ValueForm) (data : Bytes) : Except PacketError α → Prop
  | ok {value : α} : form.Admits data → Governs form data (.ok value)
  | error {e : PacketError} : Refuses data form e → Governs form data (.error e)

theorem Governs.map {α β : Type} {result : Except PacketError α} (h : Governs form data result)
    (f : α → β) : Governs form data (f <$> result) := by
  cases h with
  | ok hadmits => exact .ok hadmits
  | error hrefuses => exact .error hrefuses

theorem Governs.ok_iff {α : Type} {result : Except PacketError α} (h : Governs form data result) :
    (∃ value, result = .ok value) ↔ form.Admits data := by
  cases h with
  | ok hadmits => exact ⟨fun _ => hadmits, fun _ => ⟨_, rfl⟩⟩
  | error hrefuses => exact ⟨nofun, fun hadmits => absurd hadmits hrefuses.not_admits⟩

theorem Governs.error_iff {α : Type} {result : Except PacketError α} (h : Governs form data result) :
    result = .error e ↔ Refuses data form e := by
  cases h with
  | ok hadmits => exact ⟨nofun, fun hrefuses => absurd hadmits hrefuses.not_admits⟩
  | error hrefuses =>
    rw [Except.error.injEq]
    exact ⟨fun he => he ▸ hrefuses, hrefuses.unique⟩

end ValueForm

open ValueForm

variable {data : Bytes}

theorem length_lt_four (h : ∀ first second third fourth rest,
    data = first :: second :: third :: fourth :: rest → False) : data.length < 4 := by
  rcases data with _ | ⟨first, _ | ⟨second, _ | ⟨third, _ | ⟨fourth, rest⟩⟩⟩⟩
  case cons.cons.cons.cons => exact (h first second third fourth rest rfl).elim
  all_goals simp

theorem AddressMask.governs_decode (mask : AddressMask) (data : Bytes) :
    Governs .address data (mask.decode data) := by
  unfold decode
  split
  · next reserved family high low ip =>
    have hsize : (reserved :: family :: high :: low :: ip).length = ip.length + 4 := rfl
    have hlong : 4 ≤ (reserved :: family :: high :: low :: ip).length := by omega
    by_cases hv4 : family = 1
    · have hfamily : (reserved :: family :: high :: low :: ip)[1]? = some 1 := congrArg some hv4
      rw [if_pos hv4]
      by_cases hlength : ip.length = 4
      · rw [if_pos hlength]
        exact .ok (.inl ⟨hfamily, by omega⟩)
      · rw [if_neg hlength]
        exact .error (.addressV4 hlong hfamily (by omega))
    · rw [if_neg hv4]
      by_cases hv6 : family = 2
      · have hfamily : (reserved :: family :: high :: low :: ip)[1]? = some 2 := congrArg some hv6
        rw [if_pos hv6]
        by_cases hlength : ip.length = 16
        · rw [if_pos hlength]
          exact .ok (.inr ⟨hfamily, by omega⟩)
        · rw [if_neg hlength]
          exact .error (.addressV6 hlong hfamily (by omega))
      · rw [if_neg hv6]
        exact .error (.addressFamily hlong rfl hv4 hv6)
  · next hshort => exact .error (.addressHead (length_lt_four hshort))

namespace AttributeValue

theorem governs_text (form : String → AttributeValue) (data : Bytes) :
    Governs .text data (text form data) := by
  unfold text
  split
  · next hdecode => exact .ok ⟨_, Utf8.encode_of_decode? hdecode⟩
  · next hdecode => exact .error (.text (Utf8.not_isText_of_decode? hdecode))

theorem governs_decodeErrorCode (data : Bytes) : Governs .errorCode data (decodeErrorCode data) := by
  unfold decodeErrorCode
  split
  · next first second hundreds number reason =>
    have hlong : 4 ≤ (first :: second :: hundreds :: number :: reason).length := by simp
    have hreason := governs_text (errorCode (.ofNat (hundreds.toNat % 8 * 100 + number.toNat))) reason
    generalize text _ reason = result at hreason
    cases hreason with
    | ok hadmits => exact .ok ⟨hlong, hadmits⟩
    | error hrefuses =>
      cases hrefuses with
      | text htext => exact .error (.errorCodeReason hlong htext)
  · next hshort => exact .error (.errorCodeHead (length_lt_four hshort))

theorem governs_codes (data : Bytes) : Governs .codes data (codes data) := by
  fun_induction codes data with
  | case1 => exact .ok rfl
  | case2 => exact .error (.codes (by simp))
  | case3 high low rest ih =>
    have hparity : (high :: low :: rest).length % 2 = rest.length % 2 := by
      simp only [List.length_cons]
      omega
    generalize codes rest = result at ih
    cases ih with
    | ok hadmits => exact .ok (hparity.trans hadmits)
    | error hrefuses =>
      cases hrefuses with
      | codes hodd => exact .error (.codes (hparity ▸ hodd))

theorem governs_sized (size : Nat) (form : Bytes → AttributeValue) (data : Bytes) :
    Governs (.sized size) data (sized size form data) := by
  unfold sized
  split
  · next hsize => exact .ok hsize
  · next hsize => exact .error (.sized hsize)

theorem governs_decode (transaction : TransactionId) (type : AttributeType) (data : Bytes) :
    Governs type.form data (decode transaction type data) := by
  cases type with
  | mappedAddress | responseOrigin | xorMappedAddress | xorPeerAddress | xorRelayedAddress =>
    exact (AddressMask.governs_decode _ data).map _
  | username | realm | nonce | software => exact governs_text _ data
  | errorCode => exact governs_decodeErrorCode data
  | unknownAttributes => exact (governs_codes data).map _
  | channelNumber | lifetime | requestedTransport | requestedAddressFamily | fingerprint
  | messageIntegrity =>
    rw [decode]
    exact governs_sized _ _ data
  | data | evenPort | dontFragment | reservationToken | other => exact .ok trivial

end AttributeValue

end TurnRelay

import TurnRelay.Hash

/-!
Errors that the checksum always shows. The register is linear over the field of two elements and
loses nothing, and up to four bytes enter it as one word. Main statement: two byte strings that
differ, but only inside four consecutive bytes, have different checksums.
-/

namespace TurnRelay

/-- The byte strings are alike outside the `width` bytes from `start` on. -/
def AgreeOutside (start width : Nat) (bs cs : Bytes) : Prop :=
  ∀ i, i < start ∨ start + width ≤ i → bs[i]? = cs[i]?

namespace AgreeOutside

variable {start width : Nat} {bs cs : Bytes}

theorem take_eq (h : AgreeOutside start width bs cs) : bs.take start = cs.take start := by
  apply List.ext_getElem?
  intro i
  rw [List.getElem?_take, List.getElem?_take]
  split
  · next hi => exact h i (.inl hi)
  · rfl

theorem drop_eq (h : AgreeOutside start width bs cs) {stop : Nat} (hstop : start + width ≤ stop) :
    bs.drop stop = cs.drop stop := by
  apply List.ext_getElem?
  intro i
  rw [List.getElem?_drop, List.getElem?_drop]
  exact h _ (.inr (by omega))

theorem start_lt (h : AgreeOutside start width bs cs) (hlength : bs.length = cs.length) (hne : bs ≠ cs) :
    start < bs.length := by
  apply Nat.lt_of_not_le
  intro hle
  apply hne
  rw [← List.take_of_length_le hle, h.take_eq, List.take_of_length_le (hlength ▸ hle)]

theorem of_append_right {front back : Bytes} (h : AgreeOutside start width (bs ++ front) (cs ++ back))
    (hlength : bs.length = cs.length) : AgreeOutside start width bs cs := by
  intro i hi
  by_cases hin : i < bs.length
  · have hbyte := h i hi
    rwa [List.getElem?_append_left hin, List.getElem?_append_left (hlength ▸ hin)] at hbyte
  · rw [List.getElem?_eq_none (Nat.le_of_not_lt hin), List.getElem?_eq_none (by omega)]

theorem of_append (front back : Bytes) (h : bs.length = cs.length) :
    AgreeOutside front.length bs.length (front ++ bs ++ back) (front ++ cs ++ back) := by
  intro i hi
  obtain hi | hi := hi
  · simp only [List.append_assoc, List.getElem?_append_left hi]
  · have hmiddle (ds : Bytes) (hds : ds.length = bs.length) : (front ++ ds).length ≤ i := by
      rw [List.length_append, hds]
      exact hi
    rw [List.getElem?_append_right (hmiddle bs rfl), List.getElem?_append_right (hmiddle cs h.symm),
      List.length_append, List.length_append, h]

end AgreeOutside

namespace Crc32

variable {x y r s : BitVec 32} {bs cs : Bytes}

theorem shift_xor (x y : BitVec 32) : shift (x ^^^ y) = shift x ^^^ shift y := by
  unfold shift
  simp only [BitVec.getLsbD_xor, BitVec.ushiftRight_xor_distrib]
  cases x.getLsbD 0 with
  | false =>
    cases y.getLsbD 0 with
    | false => rfl
    | true => exact BitVec.xor_assoc ..
  | true =>
    cases y.getLsbD 0 with
    | false => simp only [Bool.xor_false, if_true, Bool.false_eq_true, if_false]; ac_rfl
    | true =>
      have hcancel : x >>> 1 ^^^ generator ^^^ (y >>> 1 ^^^ generator) =
          x >>> 1 ^^^ y >>> 1 ^^^ (generator ^^^ generator) := by ac_rfl
      simp [hcancel]

theorem getLsbD_shift_top (x : BitVec 32) : (shift x).getLsbD 31 = x.getLsbD 0 := by
  have hgenerator : generator.getLsbD 31 = true := rfl
  have hshifted : (x >>> 1).getLsbD 31 = false := by simp
  unfold shift
  split
  · next hbit => rw [BitVec.getLsbD_xor, hshifted, hgenerator, hbit]; rfl
  · next hbit => rw [hshifted]; simpa using hbit

theorem shift_inj (h : shift x = shift y) : x = y := by
  have hlow : x.getLsbD 0 = y.getLsbD 0 := by rw [← getLsbD_shift_top, h, getLsbD_shift_top]
  have hhigh : x >>> 1 = y >>> 1 := by
    unfold shift at h
    rw [hlow] at h
    split at h
    · exact (BitVec.xor_left_inj generator).1 h
    · exact h
  apply BitVec.eq_of_getLsbD_eq
  intro i hi
  cases i with
  | zero => exact hlow
  | succ i =>
    have hbit := congrArg (·.getLsbD i) hhigh
    simpa [Nat.add_comm 1 i] using hbit

theorem shift_double (h : x.getLsbD 31 = false) : shift (x <<< 1) = x := by
  have hlow : (x <<< 1).getLsbD 0 = false := by simp
  rw [shift, hlow, if_neg Bool.false_ne_true]
  apply BitVec.eq_of_getLsbD_eq
  intro i hi
  rw [BitVec.getLsbD_ushiftRight, BitVec.getLsbD_shiftLeft, Nat.add_sub_cancel_left]
  by_cases htop : i = 31
  · rw [htop, h]
    rfl
  · have hroom : 1 + i < 32 := by omega
    simp [hroom]

theorem shiftByte_xor (x y : BitVec 32) : shiftByte (x ^^^ y) = shiftByte x ^^^ shiftByte y := by
  simp only [shiftByte, shift_xor]

theorem shiftByte_inj (h : shiftByte x = shiftByte y) : x = y :=
  shift_inj (shift_inj (shift_inj (shift_inj (shift_inj (shift_inj (shift_inj (shift_inj h)))))))

theorem shiftByte_shiftLeft (h : ∀ i, 24 ≤ i → x.getLsbD i = false) : shiftByte (x <<< 8) = x := by
  have hstep {n : Nat} (hn : n < 8) : shift (x <<< (n + 1)) = x <<< n := by
    rw [BitVec.shiftLeft_add]
    apply shift_double
    rw [BitVec.getLsbD_shiftLeft, h (31 - n) (by omega), Bool.and_false]
  simp only [shiftByte]
  rw [hstep (by decide), hstep (by decide), hstep (by decide), hstep (by decide), hstep (by decide),
    hstep (by decide), hstep (by decide), hstep (by decide), BitVec.shiftLeft_zero]

theorem absorb_inj {b : UInt8} (h : absorb r b = absorb s b) : r = s :=
  (BitVec.xor_left_inj _).1 (shiftByte_inj h)

theorem foldl_absorb_inj (h : bs.foldl absorb r = bs.foldl absorb s) : r = s := by
  induction bs generalizing r s with
  | nil => exact h
  | cons b bs ih => exact absorb_inj (ih h)

def word : Bytes → BitVec 32
  | [] => 0
  | b :: bs => b.toBitVec.setWidth 32 ^^^ word bs <<< 8

theorem getLsbD_word {i : Nat} (h : 8 * bs.length ≤ i) : (word bs).getLsbD i = false := by
  induction bs generalizing i with
  | nil => simp [word]
  | cons b bs ih =>
    rw [List.length_cons] at h
    have hbyte : b.toBitVec.getLsbD i = false := BitVec.getLsbD_of_ge _ _ (by omega)
    have hrest : (word bs).getLsbD (i - 8) = false := ih (by omega)
    simp [word, hbyte, hrest]

theorem getLsbD_word_low {b : UInt8} {i : Nat} (h : i < 8) :
    (word (b :: bs)).getLsbD i = b.toBitVec.getLsbD i := by
  have hroom : i < 32 := by omega
  simp [word, h, hroom]

theorem getLsbD_word_high {b : UInt8} {i : Nat} (h : i < 24) :
    (word (b :: bs)).getLsbD (i + 8) = (word bs).getLsbD i := by
  have hbyte : b.toBitVec.getLsbD (i + 8) = false := BitVec.getLsbD_of_ge _ _ (by omega)
  have hroom : i + 8 < 32 := by omega
  rw [word, BitVec.getLsbD_xor, BitVec.getLsbD_setWidth, BitVec.getLsbD_shiftLeft, hbyte]
  simp [hroom]

theorem word_inj (hlength : bs.length = cs.length) (hshort : bs.length ≤ 4) (h : word bs = word cs) :
    bs = cs := by
  induction bs generalizing cs with
  | nil => exact (List.length_eq_zero_iff.1 hlength.symm).symm
  | cons b bs ih =>
    cases cs with
    | nil => cases hlength
    | cons c cs =>
      simp only [List.length_cons, Nat.add_right_cancel_iff] at hlength
      rw [List.length_cons] at hshort
      have hhead : b = c := by
        apply UInt8.eq_of_toBitVec_eq
        apply BitVec.eq_of_getLsbD_eq
        intro i hi
        have hbytes := congrArg (·.getLsbD i) h
        rwa [getLsbD_word_low hi, getLsbD_word_low hi] at hbytes
      have htail : word bs = word cs := by
        apply BitVec.eq_of_getLsbD_eq
        intro i hi
        by_cases hlow : i < 24
        · have hbytes := congrArg (·.getLsbD (i + 8)) h
          rwa [getLsbD_word_high hlow, getLsbD_word_high hlow] at hbytes
        · rw [getLsbD_word (by omega), getLsbD_word (by omega)]
      rw [hhead, ih hlength (by omega) htail]

theorem absorb_xor_word {b : UInt8} (h : bs.length ≤ 3) :
    absorb r b ^^^ word bs = shiftByte (r ^^^ word (b :: bs)) := by
  have hword : shiftByte (word bs <<< 8) = word bs :=
    shiftByte_shiftLeft fun i hi => getLsbD_word (by omega)
  rw [absorb, word, ← BitVec.xor_assoc, shiftByte_xor _ (word bs <<< 8), hword]

theorem xor_word_of_foldl_absorb (hlength : bs.length = cs.length) (hshort : bs.length ≤ 4)
    (h : bs.foldl absorb r = cs.foldl absorb s) : r ^^^ word bs = s ^^^ word cs := by
  induction bs generalizing cs r s with
  | nil =>
    obtain rfl := List.length_eq_zero_iff.1 hlength.symm
    rw [show r = s from h]
  | cons b bs ih =>
    cases cs with
    | nil => cases hlength
    | cons c cs =>
      simp only [List.length_cons, Nat.add_right_cancel_iff] at hlength
      rw [List.length_cons] at hshort
      have hrest := ih hlength (by omega) h
      rw [absorb_xor_word (by omega), absorb_xor_word (by omega)] at hrest
      exact shiftByte_inj hrest

theorem checksum_ne_of_burst (front back : Bytes) (hlength : bs.length = cs.length)
    (hshort : bs.length ≤ 4) (hne : bs ≠ cs) :
    checksum (front ++ bs ++ back) ≠ checksum (front ++ cs ++ back) := by
  intro h
  -- the bytes behind the damage keep two registers apart, those in front give both the same start
  rw [checksum, checksum, BitVec.not_inj, List.foldl_append, List.foldl_append, List.foldl_append,
    List.foldl_append] at h
  have hregister := xor_word_of_foldl_absorb hlength hshort (foldl_absorb_inj h)
  exact hne (word_inj hlength hshort ((BitVec.xor_right_inj _).1 hregister))

theorem checksum_ne_of_agreeOutside {start : Nat} (hlength : bs.length = cs.length) (hne : bs ≠ cs)
    (h : AgreeOutside start 4 bs cs) : checksum bs ≠ checksum cs := by
  have hparts (ds : Bytes) : ds = ds.take start ++ (ds.drop start).take 4 ++ ds.drop (start + 4) := by
    rw [← List.take_add, List.take_append_drop]
  rw [hparts bs, hparts cs, h.take_eq, h.drop_eq (Nat.le_refl _)]
  apply checksum_ne_of_burst
  · simp [hlength]
  · exact List.length_take_le ..
  · intro hsame
    apply hne
    rw [hparts bs, hparts cs, h.take_eq, h.drop_eq (Nat.le_refl _), hsame]

end Crc32

end TurnRelay

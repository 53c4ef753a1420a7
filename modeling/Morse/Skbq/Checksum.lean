import Morse.Lib.WordXor

/-!
# The checksum of a received frame

The chip combines the words of a frame and leaves the lower octets of the result
in the frame's header; `morse_validate_skb_checksum` does the same and compares.
How far it reads follows from the length in the header, in sixteen bits and up
to the next word, without the offset between the header and the frame, and
before anything is known of how much was received.
-/

namespace Morse
namespace Skbq
namespace Checksum

open Lib

/-- One octet, `u8`. -/
abbrev Octet := BitVec 8

/-! ## The test -/

/-- `sizeof(struct morse_buff_skb_header)`. -/
def sizeofSkbHdr : Nat := 40

/-- `QOS_HDR_SIZE`. -/
def qosHdrSize : Nat := 32

/-- `IEEE80211_CCMP_HDR_LEN`. -/
def ccmpHdrLen : Nat := 8

/-- `MORSE_SKB_HEADER_SYNC`. -/
def skbHeaderSync : Octet := 0xAA

/-- `MORSE_SKB_CHAN_DATA`. -/
def skbChanData : Octet := 0x00

/-- `le16_to_cpu` of two octets. -/
def le16At (data : Nat → Octet) (index : Nat) : BitVec 16 := data (index + 1) ++ data index

/-- `ieee80211_is_data`. -/
def isData (fc : BitVec 16) : Bool := fc &&& 0x000C#16 == 0x0008#16

/-- `ieee80211_is_data_qos`. -/
def isDataQos (fc : BitVec 16) : Bool := fc &&& 0x008C#16 == 0x0088#16

/-- `morse_dot11ah_is_pv1_qos_data`. -/
def isPv1QosData (fc : BitVec 16) : Bool :=
  fc &&& 0x0003#16 == 0x0001#16 && (fc &&& 0x001C#16 == 0x0000#16 || fc &&& 0x001C#16 == 0x000C#16)

/-- The frames of which only the headers are combined. -/
def hasData (fc : BitVec 16) : Bool := isData fc || isDataQos fc || isPv1QosData fc

/-- `BYTES_NEEDED_TO_WORD_ALIGN`. -/
def bytesNeededToWordAlign (bytes : Nat) : Nat :=
  if bytes % 4 ≠ 0 then 4 - bytes % 4 else 0

/-- `ROUND_DOWN_TO_WORD`. -/
def roundDownToWord (bytes : Nat) : Nat :=
  if bytesNeededToWordAlign bytes ≠ 0 then bytes - (4 - bytesNeededToWordAlign bytes) else bytes

/-- The length of the skb header, the MAC header and the CCMP header, within a
length. -/
def headersLen (len : Nat) : Nat :=
  roundDownToWord (min len (sizeofSkbHdr + qosHdrSize + ccmpHdrLen))

/-- `skb_hdr->checksum_upper = 0` and `skb_hdr->checksum_lower = 0`. -/
def clearChecksum (data : Nat → Octet) (index : Nat) : Octet :=
  if 5 ≤ index ∧ index < 8 then 0#8 else data index

/-- `header_xor`. -/
def headerXor (data : Nat → Octet) : BitVec 32 :=
  (le16At data 6).setWidth 32 <<< 8 ||| (data 5).setWidth 32

/-- `len`, as far as the octets are combined. -/
def summedLen (data : Nat → Octet) : Nat :=
  let len := (le16At data 2 + BitVec.ofNat 16 sizeofSkbHdr).toNat
  if data 1 = skbChanData ∧ hasData (le16At data sizeofSkbHdr) = true then headersLen len else len

/-- The rounds of a loop that takes four octets at a time. -/
def rounds (len : Nat) : Nat := (len + 3) / 4

/-- What `morse_validate_skb_checksum` leaves: its answer, the memory, and the
octets that it has read. -/
structure Validation where
  valid : Bool
  data : Nat → Octet
  reads : List Nat

/-- `morse_validate_skb_checksum`. -/
def morseValidateSkbChecksum (data : Nat → Octet) : Validation :=
  let len := summedLen data
  let cleared := clearChecksum data
  { valid := lowOctets (xorWords cleared (rounds len)) == headerXor data
    data := cleared
    reads :=
      [2, 3, 5, 6, 7, 1] ++
        (if data 1 = skbChanData then [sizeofSkbHdr, sizeofSkbHdr + 1] else []) ++
        List.range (4 * rounds len) }

/-! ## The frames of the chip -/

/-- The fields of a header that say where the frame is. -/
structure Header where
  channel : Octet
  len : BitVec 16
  offset : Octet

/-- The header of the frame in memory, with the synchronization octet that the
callers look for. -/
structure Header.Heads (header : Header) (data : Nat → Octet) : Prop where
  sync : data 0 = skbHeaderSync
  channel : data 1 = header.channel
  len : le16At data 2 = header.len
  offset : data 4 = header.offset

/-- The octets of the header, of the padding behind it and of the frame. -/
def Header.total (header : Header) : Nat :=
  sizeofSkbHdr + header.offset.toNat + header.len.toNat

/-- How far the sender combines these octets: for a data frame as far as its
headers go. -/
def Header.sentLen (header : Header) (frame : Nat → Octet) : Nat :=
  if header.channel = skbChanData ∧
      hasData (le16At frame (sizeofSkbHdr + header.offset.toNat)) = true then
    headersLen header.total
  else header.total

/-- The sender's checksum of exactly these octets. -/
def Header.sentChecksum (header : Header) (data : Nat → Octet) : BitVec 32 :=
  let frame := truncate (clearChecksum data) header.total
  let len := header.sentLen frame
  lowOctets (xorWords (truncate frame len) (rounds len))

/-- The octets received hold a frame with the checksum of its sender. -/
def Header.Summed (header : Header) (length : Nat) (data : Nat → Octet) : Prop :=
  header.total ≤ length ∧ headerXor data = header.sentChecksum data

/-- The test reads only what was received, and lets pass what has the checksum
of its sender. -/
structure Header.Checked (header : Header) (length : Nat) (data : Nat → Octet) : Prop where
  within : ∀ index ∈ (morseValidateSkbChecksum data).reads, index < length
  accepts : header.Summed length data → (morseValidateSkbChecksum data).valid = true

/-- How far the test reads for the length in a header, headers of data frames
apart. -/
def Header.reach (header : Header) : Nat :=
  4 * rounds (header.len + BitVec.ofNat 16 sizeofSkbHdr).toNat

/-- Where the test is right: what it reads was received, and where the whole
frame was received, it reads the frame, up to the one octet whose value does not
count, and looks for the frame's type where that is. -/
structure Header.Fits (header : Header) (length : Nat) : Prop where
  fields : 8 ≤ length
  type : header.channel = skbChanData → sizeofSkbHdr + 2 ≤ length
  reach : header.reach ≤ length
  frame :
    header.total ≤ length →
      (header.reach = header.total ∨ header.reach = header.total + 1) ∧
        (header.channel = skbChanData → header.offset = 0)

/-! ## Lengths -/

theorem roundDownToWord_eq (bytes : Nat) : roundDownToWord bytes = bytes - bytes % 4 := by
  unfold roundDownToWord bytesNeededToWordAlign
  split_ifs <;> omega

theorem headersLen_le (len : Nat) : headersLen len ≤ len := by
  rw [headersLen, roundDownToWord_eq]
  omega

theorem headersLen_mod (len : Nat) : headersLen len % 4 = 0 := by
  rw [headersLen, roundDownToWord_eq]
  omega

theorem sentLen_le (header : Header) (frame : Nat → Octet) :
    header.sentLen frame ≤ header.total := by
  unfold Header.sentLen
  split
  · exact headersLen_le _
  · exact Nat.le_refl _

/-! ## The type of a frame -/

/-- What the first octet of the frame control says. -/
def lowHasData (low : Octet) : Bool :=
  low &&& 0x0C#8 == 0x08#8 ||
    (low &&& 0x03#8 == 0x01#8 && (low &&& 0x1C#8 == 0x00#8 || low &&& 0x1C#8 == 0x0C#8))

theorem lowHasData_xor (low : Octet) : lowHasData (low ^^^ 0x80#8) = lowHasData low := by
  revert low
  decide +kernel

theorem append_and_beq (high low mask value : Octet) :
    (((high ++ low : BitVec 16) &&& (0#8 ++ mask)) == (0#8 ++ value)) =
      (low &&& mask == value) := by
  have masked : ((high ++ low : BitVec 16) &&& (0#8 ++ mask)) = 0#8 ++ (low &&& mask) := by
    apply BitVec.eq_of_getLsbD_eq
    intro bit _
    simp only [BitVec.getLsbD_and, BitVec.getLsbD_append]
    split <;> simp
  rw [masked, Bool.eq_iff_iff, beq_iff_eq, beq_iff_eq]
  exact BitVec.append_right_inj 0#8

theorem hasData_append (high low : Octet) : hasData (high ++ low) = lowHasData low := by
  have data : isData (high ++ low) = (low &&& 0x0C#8 == 0x08#8) := append_and_beq high low 0x0C 0x08
  have qos : isDataQos (high ++ low) = (low &&& 0x8C#8 == 0x88#8) := append_and_beq high
    low 0x8C 0x88
  have version : ((high ++ low : BitVec 16) &&& 0x0003#16 == 0x0001#16) =
      (low &&& 0x03#8 == 0x01#8) := append_and_beq high low 0x03 0x01
  have sid : ((high ++ low : BitVec 16) &&& 0x001C#16 == 0x0000#16) =
      (low &&& 0x1C#8 == 0x00#8) := append_and_beq high low 0x1C 0x00
  have plain : ((high ++ low : BitVec 16) &&& 0x001C#16 == 0x000C#16) =
      (low &&& 0x1C#8 == 0x0C#8) := append_and_beq high low 0x1C 0x0C
  rw [hasData, isPv1QosData, data, qos, version, sid, plain]
  clear data qos version sid plain high
  revert low
  decide +kernel

/-! ## The checksum fields -/

/-- Put a checksum into the header. -/
def fillChecksum (data : Nat → Octet) (sum : BitVec 32) (index : Nat) : Octet :=
  if index = 5 then sum.setWidth 8
  else if index = 6 then (sum >>> 8).setWidth 8
  else if index = 7 then (sum >>> 16).setWidth 8
  else data index

variable {index : Nat}

theorem fillChecksum_of_ne (elsewhere : index < 5 ∨ 8 ≤ index) (data : Nat → Octet)
    (sum : BitVec 32) :
    fillChecksum data sum index = data index := by
  rw [fillChecksum, if_neg (by omega), if_neg (by omega), if_neg (by omega)]

theorem clearChecksum_of_ne (elsewhere : index < 5 ∨ 8 ≤ index) (data : Nat → Octet) :
    clearChecksum data index = data index := by
  rw [clearChecksum, if_neg (by omega)]

theorem clearChecksum_fillChecksum (data : Nat → Octet) (sum : BitVec 32) :
    clearChecksum (fillChecksum data sum) = clearChecksum data := by
  funext index
  by_cases field : 5 ≤ index ∧ index < 8
  · rw [clearChecksum, clearChecksum, if_pos field, if_pos field]
  · rw [clearChecksum, clearChecksum, if_neg field, if_neg field,
      fillChecksum_of_ne (by omega)]

theorem headerXor_fillChecksum (data : Nat → Octet) (sum : BitVec 32) :
    headerXor (fillChecksum data sum) = lowOctets sum := by
  have lower : fillChecksum data sum 5 = sum.setWidth 8 := rfl
  have middle : fillChecksum data sum 6 = (sum >>> 8).setWidth 8 := rfl
  have upper : fillChecksum data sum 7 = (sum >>> 16).setWidth 8 := rfl
  apply BitVec.eq_of_getLsbD_eq
  intro bit below
  simp only [headerXor, le16At, lower, middle, upper, getLsbD_lowOctets, BitVec.getLsbD_or,
    BitVec.getLsbD_shiftLeft, BitVec.getLsbD_setWidth, BitVec.getLsbD_append,
    BitVec.getLsbD_ushiftRight]
  have places : bit < 8 ∨ (8 ≤ bit ∧ bit < 16) ∨ (16 ≤ bit ∧ bit < 24) ∨ 24 ≤ bit := by omega
  rcases places with first | ⟨low, high⟩ | ⟨low, high⟩ | beyond
  · simp [first, below, show bit < 24 by omega]
  · have shifted : 8 + (bit - 8) = bit := by omega
    simp [below, shifted, show ¬ bit < 8 by omega, show bit < 24 by omega,
      show bit - 8 < 8 by omega, show bit - 8 < 32 by omega]
  · have shifted : 16 + (bit - 8 - 8) = bit := by omega
    simp [below, high, shifted, show ¬ bit < 8 by omega, show ¬ bit - 8 < 8 by omega,
      show bit - 8 - 8 < 8 by omega, show bit - 8 < 32 by omega]
  · simp [show ¬ bit < 8 by omega, show ¬ bit < 24 by omega, show ¬ bit - 8 < 8 by omega,
      show ¬ bit - 8 - 8 < 8 by omega]

theorem summedLen_congr (same : ∀ index < 5, other index = data index)
    (class_eq : lowHasData (other sizeofSkbHdr) = lowHasData (data sizeofSkbHdr)) :
    summedLen other = summedLen data := by
  simp only [summedLen, le16At, hasData_append, class_eq, same 1 (by omega), same 2 (by omega),
    same 3 (by omega)]

theorem summedLen_fillChecksum (data : Nat → Octet) (sum : BitVec 32) :
    summedLen (fillChecksum data sum) = summedLen data :=
  summedLen_congr (fun _ below => fillChecksum_of_ne (.inl below) data sum)
    (congrArg lowHasData (fillChecksum_of_ne (.inr (by decide)) data sum))

theorem Header.Heads.congr {header : Header} (heads : header.Heads data)
    (same : ∀ index < 5, other index = data index) :
    header.Heads other where
  sync := (same 0 (by omega)).trans heads.sync
  channel := (same 1 (by omega)).trans heads.channel
  len := by
    rw [le16At, same 2 (by omega), same 3 (by omega)]
    exact heads.len
  offset := (same 4 (by omega)).trans heads.offset

/-! ## One changed octet -/

/-- Change one bit of an octet that does not tell the type of a frame. -/
def flipOctet (data : Nat → Octet) (target : Nat) : Nat → Octet :=
  xorMemory data (single target 0x80#8)

theorem flipOctet_of_ne (other : index ≠ target) (data : Nat → Octet) :
    flipOctet data target index = data index := by
  rw [flipOctet, xorMemory, single, if_neg other, BitVec.xor_zero]

theorem lowHasData_flipOctet (data : Nat → Octet) (target index : Nat) :
    lowHasData (flipOctet data target index) = lowHasData (data index) := by
  rcases eq_or_ne index target with rfl | other
  · rw [flipOctet, xorMemory, single, if_pos rfl, lowHasData_xor]
  · rw [flipOctet_of_ne other]

variable {target : Nat}

theorem clearChecksum_flipOctet (behind : sizeofSkbHdr ≤ target) (data : Nat → Octet) :
    clearChecksum (flipOctet data target) = flipOctet (clearChecksum data) target := by
  unfold sizeofSkbHdr at behind
  funext index
  by_cases field : 5 ≤ index ∧ index < 8
  · rw [clearChecksum, if_pos field, flipOctet_of_ne (by omega), clearChecksum, if_pos field]
  · rw [clearChecksum_of_ne (by omega), flipOctet, flipOctet, xorMemory, xorMemory,
      clearChecksum_of_ne (by omega)]

/-- What the change adds to a sum that reaches the octet. -/
def trace (target : Nat) : BitVec 32 := lowOctets (wordAt (single target 0x80#8) (target / 4))

theorem lowOctets_xorWords_flipOctet (data : Nat → Octet) (target count : Nat) :
    lowOctets (xorWords (flipOctet data target) count) =
      lowOctets (xorWords data count) ^^^ if target < 4 * count then trace target else 0#32 := by
  rw [flipOctet, xorWords_xorMemory, lowOctets_xor, lowOctets_xorWords_single]
  rfl

theorem lowOctets_truncate_flipOctet (data : Nat → Octet) (target len : Nat) :
    lowOctets (xorWords (truncate (flipOctet data target) len) (rounds len)) =
      lowOctets (xorWords (truncate data len) (rounds len)) ^^^
        if target < len then trace target else 0#32 := by
  rw [flipOctet, truncate_xorMemory, xorWords_xorMemory, lowOctets_xor, truncate_single]
  split
  · next within =>
      rw [lowOctets_xorWords_single, if_pos (by unfold rounds; omega)]
      rfl
  · rw [xorWords_zeros]
    rfl

theorem sentChecksum_eq (header : Header) (data : Nat → Octet) :
    header.sentChecksum data =
      lowOctets (xorWords
        (truncate (clearChecksum data)
          (header.sentLen (truncate (clearChecksum data) header.total)))
        (rounds (header.sentLen (truncate (clearChecksum data) header.total)))) := by
  simp only [Header.sentChecksum]
  rw [truncate_truncate (sentLen_le _ _)]

theorem sentLen_congr {header : Header}
    (class_eq :
      lowHasData (other (sizeofSkbHdr + header.offset.toNat)) =
        lowHasData (frame (sizeofSkbHdr + header.offset.toNat))) :
    header.sentLen other = header.sentLen frame := by
  simp only [Header.sentLen, le16At, hasData_append, class_eq]

theorem sentLen_flipOctet (header : Header) (data : Nat → Octet) (target : Nat) :
    header.sentLen (truncate (flipOctet data target) header.total) =
      header.sentLen (truncate data header.total) := by
  apply sentLen_congr
  unfold truncate
  split
  · exact lowHasData_flipOctet data target _
  · rfl

theorem sentChecksum_flipOctet (behind : sizeofSkbHdr ≤ target) (header : Header)
    (data : Nat → Octet) :
    header.sentChecksum (flipOctet data target) =
      header.sentChecksum data ^^^
        if target < header.sentLen (truncate (clearChecksum data) header.total) then trace target
        else 0#32 := by
  rw [sentChecksum_eq, sentChecksum_eq, clearChecksum_flipOctet behind, sentLen_flipOctet,
    lowOctets_truncate_flipOctet]

theorem lowOctets_lowOctets (word : BitVec 32) : lowOctets (lowOctets word) = lowOctets word := by
  rw [lowOctets, lowOctets, BitVec.and_assoc, BitVec.and_self]

theorem summed_fillChecksum {header : Header} (whole : header.total ≤ length) (data : Nat → Octet) :
    header.Summed length (fillChecksum data (header.sentChecksum data)) := by
  refine ⟨whole, ?_⟩
  rw [headerXor_fillChecksum, sentChecksum_eq, sentChecksum_eq, clearChecksum_fillChecksum,
    lowOctets_lowOctets]

theorem sum_eq_of_checked {header : Header}
    (checked : ∀ data, header.Heads data → header.Checked length data) (heads : header.Heads data)
    (whole : header.total ≤ length) :
    lowOctets (xorWords (clearChecksum data) (rounds (summedLen data))) =
      header.sentChecksum data := by
  have filled := checked _ (heads.congr fun _ below =>
    fillChecksum_of_ne (.inl below) data (header.sentChecksum data))
  have passes := filled.accepts (summed_fillChecksum whole data)
  simp only [morseValidateSkbChecksum, summedLen_fillChecksum, clearChecksum_fillChecksum,
    headerXor_fillChecksum, beq_iff_eq] at passes
  rw [passes, sentChecksum_eq, lowOctets_lowOctets]

theorem reached_iff_of_checked {header : Header} {length target : Nat} {data : Nat → Octet}
    (checked : ∀ data, header.Heads data → header.Checked length data) (heads : header.Heads data)
    (whole : header.total ≤ length) (behind : sizeofSkbHdr ≤ target) (low : target % 4 ≠ 3) :
    target < 4 * rounds (summedLen data) ↔
      target < header.sentLen (truncate (clearChecksum data) header.total) := by
  have kept (index : Nat) (below : index < 5) : flipOctet data target index = data index :=
    flipOctet_of_ne (by unfold sizeofSkbHdr at behind; omega) data
  have before := sum_eq_of_checked checked heads whole
  have after := sum_eq_of_checked checked (heads.congr kept) whole
  rw [summedLen_congr kept (lowHasData_flipOctet data target _), clearChecksum_flipOctet behind,
    lowOctets_xorWords_flipOctet, sentChecksum_flipOctet behind, before,
    BitVec.xor_right_inj] at after
  have shows : trace target ≠ 0#32 := lowOctets_wordAt_single_ne_zero low (by decide)
  split_ifs at after with tested sent sent
  · exact iff_of_true tested sent
  · exact absurd after shows
  · exact absurd after.symm shows
  · exact iff_of_false tested sent

/-! ## Contents for a header -/

/-- A header with nothing but zeros behind it, the type of a frame apart. -/
def Header.plain (header : Header) (low : Octet) (index : Nat) : Octet :=
  if index = 0 then skbHeaderSync
  else if index = 1 then header.channel
  else if index = 2 then header.len.setWidth 8
  else if index = 3 then (header.len >>> 8).setWidth 8
  else if index = 4 then header.offset
  else if index = sizeofSkbHdr then low
  else 0#8

theorem heads_plain (header : Header) (low : Octet) : header.Heads (header.plain low) where
  sync := rfl
  channel := rfl
  len := by
    have upper : header.plain low (2 + 1) = (header.len >>> 8).setWidth 8 := rfl
    have lower : header.plain low 2 = header.len.setWidth 8 := rfl
    rw [le16At, upper, lower]
    apply BitVec.eq_of_getLsbD_eq
    intro bit below
    simp only [BitVec.getLsbD_append, BitVec.getLsbD_setWidth, BitVec.getLsbD_ushiftRight]
    split
    · next first => rw [decide_eq_true first, Bool.true_and]
    · next second =>
        rw [decide_eq_true (show bit - 8 < 8 by omega), Bool.true_and,
          show 8 + (bit - 8) = bit by omega]
  offset := rfl

/-- The length that the test computes, headers of data frames apart. -/
def Header.wholeLen (header : Header) : Nat := (header.len + BitVec.ofNat 16 sizeofSkbHdr).toNat

theorem wholeLen_eq (header : Header) :
    header.wholeLen = (header.len.toNat + sizeofSkbHdr) % 65536 := by
  rfl

theorem reach_eq (header : Header) : header.reach = 4 * rounds header.wholeLen := rfl

theorem summedLen_eq {header : Header} (heads : header.Heads data) :
    summedLen data =
      if header.channel = skbChanData ∧ lowHasData (data sizeofSkbHdr) = true then
        headersLen header.wholeLen
      else header.wholeLen := by
  simp only [summedLen, heads.channel, heads.len, Header.wholeLen]
  rw [le16At, hasData_append]

theorem sentLen_eq (header : Header) (frame : Nat → Octet) :
    header.sentLen frame =
      if header.channel = skbChanData ∧
          lowHasData (frame (sizeofSkbHdr + header.offset.toNat)) = true then
        headersLen header.total
      else header.total := by
  rw [Header.sentLen, le16At, hasData_append]

theorem plain_type (header : Header) (low : Octet) : header.plain low sizeofSkbHdr = low := rfl

theorem summedLen_plain (header : Header) : summedLen (header.plain 0) = header.wholeLen := by
  rw [summedLen_eq (heads_plain header 0), if_neg]
  rintro ⟨-, isData⟩
  rw [plain_type] at isData
  exact absurd isData (by decide)

theorem sentLen_plain {header : Header} (elsewhere : lowHasData low = true → header.offset ≠ 0) :
    header.sentLen (truncate (clearChecksum (header.plain low)) header.total) = header.total := by
  rw [sentLen_eq, if_neg]
  rintro ⟨-, isData⟩
  have behind : 8 ≤ sizeofSkbHdr + header.offset.toNat := by
    unfold sizeofSkbHdr
    omega
  rw [truncate] at isData
  split at isData
  · rw [clearChecksum_of_ne (.inr behind)] at isData
    by_cases none : header.offset.toNat = 0
    · have type : header.plain low (sizeofSkbHdr + header.offset.toNat) = low := by
        rw [none]
        rfl
      rw [type] at isData
      exact elsewhere isData (BitVec.eq_of_toNat_eq none)
    · have padding : header.plain low (sizeofSkbHdr + header.offset.toNat) = 0#8 := by
        unfold Header.plain sizeofSkbHdr
        rw [if_neg (by omega), if_neg (by omega), if_neg (by omega), if_neg (by omega),
          if_neg (by omega), if_neg (by omega)]
      rw [padding] at isData
      exact absurd isData (by decide)
  · exact absurd isData (by decide)

/-! ## Where the test is right -/

theorem reach_of_checked {header : Header}
    (checked : ∀ data, header.Heads data → header.Checked length data)
    (whole : header.total ≤ length) :
    header.reach = header.total ∨ header.reach = header.total + 1 := by
  have agree (target : Nat) (behind : sizeofSkbHdr ≤ target) (low : target % 4 ≠ 3) :
      target < header.reach ↔ target < header.total := by
    have counts := reached_iff_of_checked checked (heads_plain header 0) whole behind low
    rwa [summedLen_plain, sentLen_plain fun isData => absurd isData (by decide)] at counts
  have wraps := wholeLen_eq header
  have reach := reach_eq header
  unfold rounds at reach
  unfold Header.total sizeofSkbHdr at agree ⊢
  unfold sizeofSkbHdr at wraps
  have first := agree 40 (by omega) (by omega)
  rcases Nat.lt_or_ge 40 header.reach with beyond | within
  · have last := agree (header.reach - 2) (by omega) (by omega)
    have next := agree header.reach (by omega) (by omega)
    omega
  · omega

theorem offset_of_checked {header : Header}
    (checked : ∀ data, header.Heads data → header.Checked length data)
    (whole : header.total ≤ length) (channel : header.channel = skbChanData) :
    header.offset = 0 := by
  by_contra padded
  have ends := reach_of_checked checked whole
  have wraps := wholeLen_eq header
  have reach := reach_eq header
  have some_padding : header.offset.toNat ≠ 0 := fun none => padded (BitVec.eq_of_toNat_eq none)
  have summed : summedLen (header.plain 8) = headersLen header.wholeLen := by
    rw [summedLen_eq (heads_plain header 8), plain_type, if_pos ⟨channel, by decide⟩]
  have counts :=
    @reached_iff_of_checked header length (header.reach - 4) _ checked (heads_plain header 8) whole
  rw [sentLen_plain fun _ => padded] at counts
  have headers : headersLen header.wholeLen ≤ header.wholeLen - header.wholeLen % 4 := by
    rw [headersLen, roundDownToWord_eq]
    omega
  unfold rounds at reach counts
  unfold Header.total sizeofSkbHdr at ends counts
  unfold sizeofSkbHdr at wraps
  omega

theorem fits_of_checked {header : Header}
    (checked : ∀ data, header.Heads data → header.Checked length data) :
    header.Fits length where
  fields := (checked _ (heads_plain header 0)).within 7 (by simp [morseValidateSkbChecksum])
  type := by
    intro channel
    have type : (header.plain 0) 1 = skbChanData := channel
    refine (checked _ (heads_plain header 0)).within (sizeofSkbHdr + 1) ?_
    simp only [morseValidateSkbChecksum]
    rw [if_pos type]
    exact List.mem_append_left _ (List.mem_append_right _ (by simp))
  reach := by
    rcases Nat.eq_zero_or_pos header.reach with none | some_words
    · rw [none]
      exact Nat.zero_le _
    · have last := (checked _ (heads_plain header 0)).within (header.reach - 1) (by
        simp only [morseValidateSkbChecksum, summedLen_plain, ← reach_eq, List.mem_append,
          List.mem_range]
        exact .inr (by omega))
      omega
  frame := fun whole => ⟨reach_of_checked checked whole, offset_of_checked checked whole⟩

theorem ends_of_fits {header : Header} (fits : header.Fits length) (heads : header.Heads data)
    (whole : header.total ≤ length) :
    4 * rounds (summedLen data) =
        header.sentLen (truncate (clearChecksum data) header.total) ∨
      4 * rounds (summedLen data) =
        header.sentLen (truncate (clearChecksum data) header.total) + 1 := by
  obtain ⟨ends, unpadded⟩ := fits.frame whole
  rw [summedLen_eq heads, sentLen_eq]
  by_cases channel : header.channel = skbChanData
  · have wraps := wholeLen_eq header
    have total : header.total = header.wholeLen := by
      have zero : header.offset.toNat = 0 := by rw [unpadded channel]; rfl
      rw [reach_eq] at ends
      unfold rounds at ends
      unfold Header.total sizeofSkbHdr at ends ⊢
      unfold sizeofSkbHdr at wraps
      omega
    have place : sizeofSkbHdr + header.offset.toNat = sizeofSkbHdr := by
      rw [unpadded channel]
      rfl
    have word := headersLen_mod header.total
    rw [place, truncate, ← total]
    rw [reach_eq, ← total] at ends
    by_cases isData : lowHasData (data sizeofSkbHdr) = true
    · rw [if_pos ⟨channel, isData⟩]
      split
      · rw [if_pos ⟨channel, isData⟩]
        unfold rounds
        omega
      · next bare =>
          have none : ¬ lowHasData 0#8 = true := by decide
          have only : header.total = 40 := by
            unfold Header.total sizeofSkbHdr at bare ⊢
            omega
          rw [if_neg fun both => none both.2, only]
          exact .inl rfl
    · rw [if_neg fun both => isData both.2]
      split
      · rw [if_neg fun both => isData both.2]
        exact ends
      · have none : ¬ lowHasData 0#8 = true := by decide
        rw [if_neg fun both => none both.2]
        exact ends
  · rw [if_neg fun both => channel both.1, if_neg fun both => channel both.1]
    rwa [reach_eq] at ends

theorem checked_of_fits {header : Header} (fits : header.Fits length) (heads : header.Heads data) :
    header.Checked length data where
  within := by
    intro index read
    simp only [morseValidateSkbChecksum, List.mem_append, List.mem_range] at read
    rcases read with (field | type) | word
    · have inside : index < 8 := by
        simp only [List.mem_cons, List.not_mem_nil, or_false] at field
        omega
      exact Nat.lt_of_lt_of_le inside fits.fields
    · split at type
      · next channel =>
          have room := fits.type (heads.channel.symm.trans channel)
          simp only [List.mem_cons, List.not_mem_nil, or_false] at type
          omega
      · cases type
    · have reach := fits.reach
      have shorter : summedLen data ≤ header.wholeLen := by
        rw [summedLen_eq heads]
        split
        · exact headersLen_le _
        · exact Nat.le_refl _
      rw [reach_eq] at reach
      unfold rounds at word reach
      omega
  accepts := by
    rintro ⟨whole, sum⟩
    simp only [morseValidateSkbChecksum, beq_iff_eq]
    rw [sum, sentChecksum_eq]
    have ends := ends_of_fits fits heads whole
    generalize header.sentLen (truncate (clearChecksum data) header.total) = len at ends
    generalize summedLen data = summed at ends
    have same : rounds len = rounds summed := by
      unfold rounds at ends ⊢
      omega
    rw [same]
    apply lowOctets_xorWords_congr
    intro place below
    rw [truncate, if_pos (by omega)]

/-- `morse_validate_skb_checksum` for a header, a length received and any
contents. -/
theorem validateSkbChecksum_iff (header : Header) (length : Nat) :
    (∀ data, header.Heads data → header.Checked length data) ↔ header.Fits length :=
  ⟨fits_of_checked, fun fits _ heads => checked_of_fits fits heads⟩

/-- A command response of a hundred octets in a page of forty-eight, and one
that is whole but has an octet of padding before it. -/
theorem not_validateSkbChecksum :
    ¬ (∀ data, (⟨0xFE, 100, 0⟩ : Header).Heads data → (⟨0xFE, 100, 0⟩ : Header).Checked 48 data) ∧
      ¬ (∀ data, (⟨0xFE, 4, 1⟩ : Header).Heads data →
        (⟨0xFE, 4, 1⟩ : Header).Checked 48 data) := by
  constructor
  · intro checked
    have within := (checked _ (heads_plain _ 0)).within 139 (by decide +kernel)
    exact absurd within (by decide)
  · intro checked
    have ends := reach_of_checked checked (by decide)
    exact absurd ends (by decide)

end Checksum
end Skbq
end Morse

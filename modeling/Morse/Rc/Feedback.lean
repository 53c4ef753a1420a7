import Mathlib.Data.Nat.Cast.Basic
import Morse.Mmrc.Chains
import Morse.Rc.Defs

/-!
# Feedback about a frame

When a frame has been sent, the chip says how often it was tried at which rate and whether
it was acknowledged.  The attempts go to the rows of the rates, one rate after the other as
far as attempts were asked for, and a success goes to the row where they end.
-/

namespace Morse
namespace Rc

open Lib Mmrc

/-! ## The code -/

/-- `morse_ratecode_nss_index_get`. -/
def nssIndexGet (rc : BitVec 32) : BitVec 32 := (rc &&& 0x00000700) >>> 8

/-- `morse_ratecode_rts_get`. -/
def rtsGet (rc : BitVec 32) : Bool := decide ((rc &&& 0x00010000) >>> 16 ≠ 0)

/-- `morse_ratecode_sgi_get`. -/
def sgiGet (rc : BitVec 32) : Bool := decide ((rc &&& 0x00040000) >>> 18 ≠ 0)

/-- `struct morse_skb_tx_status`. -/
structure TxStatus where
  noAck : Bool
  ampduInfo : BitVec 16
  rates : Rates

/-- The loop of `morse_mac_get_tx_attempts`. -/
def txAttemptsFrom (rates : Rates) : Nat → Nat → Nat
  | 0, _ => 0
  | left + 1, i =>
    if 0 < (rates i).count then (rates i).count.toNat + txAttemptsFrom rates left (i + 1) else 0

/-- `morse_mac_get_tx_attempts`. -/
def getTxAttempts (status : TxStatus) : Nat := txAttemptsFrom status.rates txMaxRates 0

/-- The chain that `morse_rc_sta_feedback_rates` puts together: the rates of the status with
the attempts that were asked for. -/
def feedbackChain (control : Nat → BitVec 5) (status : TxStatus) : List MmrcRate :=
  (List.range txMaxRates).map fun i =>
    { rate := (mcsIndexGet (status.rates i).morseRatecode).toNat % 16
      attempts := (control i).toNat % 8
      guard := (sgiGet (status.rates i).morseRatecode).toNat
      ss := (nssIndexGet (status.rates i).morseRatecode).toNat % 4
      bw := (bwIndexGet (status.rates i).morseRatecode).toNat % 8
      flags := (rtsGet (status.rates i).morseRatecode).toNat
      index := 0 }

/-- `MORSE_TXSTS_AMPDU_INFO_GET_SUC`. -/
def ampduInfoGetSuc (info : BitVec 16) : BitVec 32 := (info &&& 0x1F).setWidth 32

/-- `MORSE_TXSTS_AMPDU_INFO_GET_LEN`. -/
def ampduInfoGetLen (info : BitVec 16) : BitVec 32 := ((info >>> 5) &&& 0x1F).setWidth 32

/-- What `morse_rc_sta_feedback_rates` does to the table of a station. -/
def staFeedbackRates (tb : MmrcTable) (control : Nat → BitVec 5) (status : TxStatus) :
    Option MmrcTable :=
  let attempts := getTxAttempts status
  if attempts = 0 then some tb
  else if status.ampduInfo ≠ 0 then
    feedbackAgg wrapping tb (feedbackChain control status) attempts
      (ampduInfoGetSuc status.ampduInfo).toNat
      (ampduInfoGetLen status.ampduInfo - ampduInfoGetSuc status.ampduInfo).toNat
  else feedback wrapping tb (feedbackChain control status) attempts

/-! ## What is expected -/

/-- A table whose counters of attempts and successes fit their fields. -/
structure CountedTable where
  tb : MmrcTable
  sent_lt : ∀ row, (tb.table row).sent < 65536
  sentSuccess_lt : ∀ row, (tb.table row).sentSuccess < 65536

/-- The attempts that were asked for. -/
def askedFor (chain : List MmrcRate) : Nat := (chain.map MmrcRate.attempts).sum

/-- The rows of a chain with their parts of the attempts, which are used up one rate after the
other. -/
def parts (caps : StaCapabilities) : List MmrcRate → Nat → List (Nat × Nat)
  | [], _ => []
  | rate :: rest, left =>
    ((rateUpdateIndex caps rate).index, min rate.attempts left) ::
      parts caps rest (left - rate.attempts)

/-- What a row has of the parts. -/
def ofRow (row : Nat) (entries : List (Nat × Nat)) : Nat :=
  ((entries.filter fun entry => entry.1 = row).map Prod.snd).sum

/-- The row of the last attempt. -/
def lastRow (entries : List (Nat × Nat)) : Option Nat :=
  ((entries.filter fun entry => 0 < entry.2).getLast?).map Prod.fst

/-- The attempts of a frame are added to the rows, and no more than one success, at the row of
the last attempt and not without an acknowledgement. -/
structure Credited (tb next : MmrcTable) (entries : List (Nat × Nat)) (reported asked : Nat)
    (noAck : Bool) (credit : Nat) : Prop where
  total : (entries.map Prod.snd).sum = min reported asked
  sent : ∀ row, (next.table row).sent = (tb.table row).sent + ofRow row entries
  success : ∀ row, (next.table row).sentSuccess =
    (tb.table row).sentSuccess + if lastRow entries = some row then credit else 0
  once : credit ≤ 1
  acknowledged : noAck = true → credit = 0

/-- The feedback about a frame that is no part of an aggregate is credited. -/
def CreditsHonestly (counted : CountedTable) (control : Nat → BitVec 5) (status : TxStatus) :
    Prop :=
  status.ampduInfo = 0 → ∃ next credit,
    staFeedbackRates counted.tb control status = some next ∧
      Credited counted.tb next
        (parts counted.tb.caps (feedbackChain control status) (getTxAttempts status))
        (getTxAttempts status) (askedFor (feedbackChain control status)) status.noAck credit

/-- A frame that was not acknowledged has more attempts than were asked for, and no counter
overflows. -/
def Creditable (counted : CountedTable) (control : Nat → BitVec 5) (status : TxStatus) : Prop :=
  status.ampduInfo = 0 → getTxAttempts status ≠ 0 →
    let entries := parts counted.tb.caps (feedbackChain control status) (getTxAttempts status)
    (∀ row, (counted.tb.table row).sent + ofRow row entries < 65536) ∧
      (getTxAttempts status ≤ askedFor (feedbackChain control status) →
        status.noAck = false ∧
          ∀ row, lastRow entries = some row →
            (counted.tb.table row).sentSuccess + 1 < 65536)

/-! ## Parts -/

variable {caps : StaCapabilities}

theorem sum_parts (caps : StaCapabilities) (chain : List MmrcRate) (left : Nat) :
    ((parts caps chain left).map Prod.snd).sum = min left (askedFor chain) := by
  induction chain generalizing left with
  | nil => exact (Nat.min_zero left).symm
  | cons rate rest ih =>
    have asked : askedFor (rate :: rest) = rate.attempts + askedFor rest := rfl
    rw [parts, List.map_cons, List.sum_cons, ih]
    omega

theorem parts_zero (listed : entry ∈ parts caps chain 0) :
    entry.2 = 0 := by
  induction chain with
  | nil => exact absurd listed List.not_mem_nil
  | cons rate rest ih =>
    rw [parts, Nat.zero_sub] at listed
    rcases List.mem_cons.mp listed with rfl | later
    · exact Nat.min_zero _
    · exact ih later

theorem ofRow_cons (row : Nat) (entry : Nat × Nat) (entries : List (Nat × Nat)) :
    ofRow row (entry :: entries) = (if entry.1 = row then entry.2 else 0) + ofRow row entries := by
  rw [ofRow, ofRow, List.filter_cons]
  by_cases here : entry.1 = row
  · rw [if_pos here, if_pos (decide_eq_true here), List.map_cons, List.sum_cons]
  · rw [if_neg here, if_neg (by rw [decide_eq_false here]; exact Bool.false_ne_true), Nat.zero_add]

theorem ofRow_parts_zero (caps : StaCapabilities) (row : Nat) (chain : List MmrcRate) :
    ofRow row (parts caps chain 0) = 0 := by
  induction chain with
  | nil => rfl
  | cons rate rest ih =>
    rw [parts, Nat.zero_sub, ofRow_cons, ih, Nat.min_zero, ite_self]

theorem filter_parts_zero (caps : StaCapabilities) (chain : List MmrcRate) :
    (parts caps chain 0).filter (fun entry => 0 < entry.2) = [] := by
  rw [List.filter_eq_nil_iff]
  intro entry listed
  rw [parts_zero listed]
  exact Bool.false_ne_true

variable {left : Nat}

theorem lastRow_parts_of_le (rate : MmrcRate) (rest : List MmrcRate) (positive : 0 < left)
    (enough : left ≤ rate.attempts) :
    lastRow (parts caps (rate :: rest) left) = some (rateUpdateIndex caps rate).index := by
  have part : min rate.attempts left = left := Nat.min_eq_right enough
  have none' : left - rate.attempts = 0 := Nat.sub_eq_zero_of_le enough
  rw [lastRow, parts, part, none', List.filter_cons, if_pos (decide_eq_true positive),
    filter_parts_zero]
  rfl

variable {chain : List MmrcRate}

theorem exists_mem_parts (positive : 0 < left) (asked : 0 < askedFor chain) :
    ∃ entry ∈ parts caps chain left, 0 < entry.2 := by
  induction chain with
  | nil => exact absurd asked (Nat.lt_irrefl 0)
  | cons rate rest ih =>
    rw [parts]
    by_cases own : 0 < rate.attempts
    · exact ⟨_, List.mem_cons_self, Nat.lt_min.mpr ⟨own, positive⟩⟩
    · have none' : rate.attempts = 0 := Nat.eq_zero_of_not_pos own
      have split : askedFor (rate :: rest) = rate.attempts + askedFor rest := rfl
      rw [split, none', Nat.zero_add] at asked
      obtain ⟨entry, listed, filled⟩ := ih asked
      rw [none']
      exact ⟨entry, List.mem_cons_of_mem _ listed, filled⟩

variable {rest : List MmrcRate}

theorem lastRow_parts_of_lt (rate : MmrcRate) (more : rate.attempts < left)
    (within : left - rate.attempts ≤ askedFor rest) :
    lastRow (parts caps (rate :: rest) left) =
      lastRow (parts caps rest (left - rate.attempts)) := by
  obtain ⟨entry, listed, filled⟩ : ∃ entry ∈ parts caps rest (left - rate.attempts), 0 < entry.2 :=
    exists_mem_parts (by omega) (by omega)
  have inside : entry ∈ (parts caps rest (left - rate.attempts)).filter
      (fun entry => 0 < entry.2) := List.mem_filter.mpr ⟨listed, decide_eq_true filled⟩
  rw [lastRow, lastRow, parts, List.filter_cons]
  split
  · rw [List.getLast?_cons, List.getLast?_eq_some_getLast (List.ne_nil_of_mem inside)]
    rfl
  · rfl

/-! ## The walk over a chain -/

/-- The counters of a table fit their fields. -/
def Counted (tb : MmrcTable) : Prop :=
  ∀ row, (tb.table row).sent < 65536 ∧ (tb.table row).sentSuccess < 65536

/-- What the walk does to the counters, of which it drops what does not fit. -/
structure Walked (tb next : MmrcTable) (entries : List (Nat × Nat)) (ends : Bool) : Prop where
  sent : ∀ row, (next.table row).sent = ((tb.table row).sent + ofRow row entries) % 65536
  success : ∀ row, (next.table row).sentSuccess =
    if ends = true ∧ lastRow entries = some row then ((tb.table row).sentSuccess + 1) % 65536
    else (tb.table row).sentSuccess

theorem wrapping_add (counter more : Nat) :
    wrapping 16 ((counter : Int) + more) = some ((counter + more) % 65536) := by
  have same : (((counter : Int) + more) % 65536).toNat = (counter + more) % 65536 := by omega
  exact congrArg some same

theorem table_setRow_self (tb : MmrcTable) (row : Nat) (stats : StatsTable) :
    (tb.setRow row stats).table row = stats := by
  simp only [MmrcTable.setRow, Function.update_self]

theorem table_setRow_of_ne (tb : MmrcTable) (stats : StatsTable) (apart : other ≠ row) :
    (tb.setRow row stats).table other = tb.table other := by
  simp only [MmrcTable.setRow, Function.update_of_ne apart]

variable {tb : MmrcTable}

theorem walked_last (counted : Counted tb) (rate : MmrcRate) (rest : List MmrcRate)
    (positive : 0 < left) (enough : left ≤ rate.attempts) :
    Walked tb
      (tb.setRow (rateUpdateIndex tb.caps rate).index
        { tb.table (rateUpdateIndex tb.caps rate).index with
          sent := ((tb.table (rateUpdateIndex tb.caps rate).index).sent + left) % 65536
          sentSuccess :=
            ((tb.table (rateUpdateIndex tb.caps rate).index).sentSuccess + 1) % 65536 })
      (parts tb.caps (rate :: rest) left) true := by
  have last : lastRow (parts tb.caps (rate :: rest) left) =
      some (rateUpdateIndex tb.caps rate).index :=
    lastRow_parts_of_le rate rest positive enough
  have part : min rate.attempts left = left := Nat.min_eq_right enough
  constructor
  · intro row
    rw [parts, part, Nat.sub_eq_zero_of_le enough, ofRow_cons, ofRow_parts_zero]
    by_cases here : row = (rateUpdateIndex tb.caps rate).index
    · rw [here, if_pos rfl, table_setRow_self]
      rfl
    · rw [if_neg (Ne.symm here), table_setRow_of_ne _ _ here, Nat.add_zero,
        Nat.mod_eq_of_lt (counted row).1]
  · intro row
    rw [last]
    by_cases here : row = (rateUpdateIndex tb.caps rate).index
    · rw [here, if_pos ⟨rfl, rfl⟩, table_setRow_self]
    · rw [if_neg (fun both => here (Option.some.inj both.2).symm), table_setRow_of_ne _ _ here]

theorem walked_more (counted : Counted tb) (rate : MmrcRate) (more : rate.attempts < left)
    (walked : Walked
      (tb.setRow (rateUpdateIndex tb.caps rate).index
        { tb.table (rateUpdateIndex tb.caps rate).index with
          sent := ((tb.table (rateUpdateIndex tb.caps rate).index).sent + rate.attempts) % 65536 })
      next (parts tb.caps rest (left - rate.attempts))
      (decide (left - rate.attempts ≤ askedFor rest))) :
    Walked tb next (parts tb.caps (rate :: rest) left)
      (decide (left ≤ askedFor (rate :: rest))) := by
  have asked : askedFor (rate :: rest) = rate.attempts + askedFor rest := rfl
  have within : left ≤ askedFor (rate :: rest) ↔ left - rate.attempts ≤ askedFor rest := by
    omega
  constructor
  · intro row
    have own := walked.sent row
    rw [parts, ofRow_cons]
    by_cases here : row = (rateUpdateIndex tb.caps rate).index
    · rw [← here, table_setRow_self] at own
      rw [if_pos here.symm, own]
      dsimp only
      omega
    · rw [table_setRow_of_ne _ _ here] at own
      rw [if_neg (Ne.symm here)]
      omega
  · intro row
    have own := walked.success row
    have same : ((tb.setRow (rateUpdateIndex tb.caps rate).index
        { tb.table (rateUpdateIndex tb.caps rate).index with
          sent := ((tb.table (rateUpdateIndex tb.caps rate).index).sent + rate.attempts) %
            65536 }).table row).sentSuccess = (tb.table row).sentSuccess := by
      by_cases here : row = (rateUpdateIndex tb.caps rate).index
      · rw [here, table_setRow_self]
      · rw [table_setRow_of_ne _ _ here]
    rw [same] at own
    rw [own]
    by_cases enough : left - rate.attempts ≤ askedFor rest
    · rw [decide_eq_true enough, decide_eq_true (within.mpr enough),
        lastRow_parts_of_lt rate more enough]
    · rw [decide_eq_false enough, decide_eq_false (fun all => enough (within.mp all)),
        if_neg (fun both => Bool.false_ne_true both.1),
        if_neg (fun both => Bool.false_ne_true both.1)]

theorem exists_walked (counted : Counted tb) (chain : List MmrcRate) (positive : 0 < left)
    (reported : retryCount ≠ -1) :
    ∃ next, feedbackRates wrapping retryCount tb chain left = some next ∧
      Walked tb next (parts tb.caps chain left) (decide (left ≤ askedFor chain)) := by
  induction chain generalizing tb left with
  | nil =>
    have beyond : ¬ left ≤ askedFor [] := Nat.not_le.mpr positive
    refine ⟨tb, rfl, ?_, ?_⟩
    · intro row
      exact (Nat.mod_eq_of_lt (counted row).1).symm
    · intro row
      rw [decide_eq_false beyond, if_neg (fun both => Bool.false_ne_true both.1)]
  | cons rate rest ih =>
    rw [feedbackRates, if_neg reported]
    by_cases more : rate.attempts < left
    · have cast : ((rate.attempts : Nat) : Int) < left := by exact_mod_cast more
      have rest' : (left : Int) - rate.attempts = ((left - rate.attempts : Nat) : Int) := by omega
      have countedNext : Counted (tb.setRow (rateUpdateIndex tb.caps rate).index
          { tb.table (rateUpdateIndex tb.caps rate).index with
            sent := ((tb.table (rateUpdateIndex tb.caps rate).index).sent + rate.attempts) %
              65536 }) := by
        intro row
        by_cases here : row = (rateUpdateIndex tb.caps rate).index
        · rw [here, table_setRow_self]
          exact ⟨Nat.mod_lt _ (by decide), (counted _).2⟩
        · rw [table_setRow_of_ne _ _ here]
          exact counted row
      have remaining : 0 < left - rate.attempts := by omega
      obtain ⟨next, taken, walked⟩ := ih countedNext remaining
      refine ⟨next, ?_, walked_more counted rate more walked⟩
      rw [if_pos cast, rest']
      exact taken
    · have cast : ¬ ((rate.attempts : Nat) : Int) < left := by exact_mod_cast more
      have enough : left ≤ rate.attempts := Nat.not_lt.mp more
      have asked : askedFor (rate :: rest) = rate.attempts + askedFor rest := rfl
      have within : left ≤ askedFor (rate :: rest) := by omega
      refine ⟨tb.setRow (rateUpdateIndex tb.caps rate).index
        { tb.table (rateUpdateIndex tb.caps rate).index with
          sent := ((tb.table (rateUpdateIndex tb.caps rate).index).sent + left) % 65536
          sentSuccess :=
            ((tb.table (rateUpdateIndex tb.caps rate).index).sentSuccess + 1) % 65536 },
        ?_, ?_⟩
      · rw [if_neg cast, wrapping_add]
        rfl
      · rw [decide_eq_true within]
        exact walked_last counted rate rest positive enough

/-! ## Feedback about a frame by itself -/

variable {counted : CountedTable} {control : Nat → BitVec 5} {status : TxStatus}

theorem creditsHonestly_of_none (none' : getTxAttempts status = 0) :
    CreditsHonestly counted control status := by
  intro _
  refine ⟨counted.tb, 0, ?_, ?_⟩
  · rw [staFeedbackRates, if_pos none']
  · rw [none']
    constructor
    · exact sum_parts _ _ 0
    · intro row
      rw [ofRow_parts_zero, Nat.add_zero]
    · intro row
      rw [ite_self, Nat.add_zero]
    · exact Nat.zero_le 1
    · intro _
      rfl

theorem exists_staFeedbackRates (counted : CountedTable) (control : Nat → BitVec 5)
    (alone : status.ampduInfo = 0) (tried : getTxAttempts status ≠ 0) :
    ∃ next, staFeedbackRates counted.tb control status = some next ∧
      Walked counted.tb next
        (parts counted.tb.caps (feedbackChain control status) (getTxAttempts status))
        (decide (getTxAttempts status ≤ askedFor (feedbackChain control status))) := by
  have counts : ((getTxAttempts status : Nat) : Int) ≠ -1 := by omega
  obtain ⟨next, taken, walked⟩ := exists_walked
    (fun row => ⟨counted.sent_lt row, counted.sentSuccess_lt row⟩)
    (feedbackChain control status) (Nat.pos_of_ne_zero tried) counts
  refine ⟨next, ?_, walked⟩
  rw [staFeedbackRates, if_neg tried, if_neg (not_not.mpr alone)]
  exact taken

theorem exists_lastRow (positive : 0 < left) (within : left ≤ askedFor chain) :
    ∃ row, lastRow (parts caps chain left) = some row := by
  obtain ⟨entry, listed, filled⟩ : ∃ entry ∈ parts caps chain left, 0 < entry.2 :=
    exists_mem_parts positive (Nat.lt_of_lt_of_le positive within)
  have inside : entry ∈ (parts caps chain left).filter (fun entry => 0 < entry.2) :=
    List.mem_filter.mpr ⟨listed, decide_eq_true filled⟩
  rw [lastRow, List.getLast?_eq_some_getLast (List.ne_nil_of_mem inside)]
  exact ⟨_, rfl⟩

/-- The feedback about a frame is credited if and only if a frame that was not acknowledged has
more attempts than were asked for, and no counter overflows. -/
theorem creditsHonestly_iff (counted : CountedTable) (control : Nat → BitVec 5)
    (status : TxStatus) :
    CreditsHonestly counted control status ↔ Creditable counted control status := by
  by_cases tried : getTxAttempts status = 0
  · constructor
    · intro _ _ some'
      exact absurd tried some'
    · intro _
      exact creditsHonestly_of_none tried
  · constructor
    · intro honest alone _
      obtain ⟨next, taken, walked⟩ := exists_staFeedbackRates counted control alone tried
      obtain ⟨other, credit, taken', credited⟩ := honest alone
      have same : next = other := Option.some.inj (taken.symm.trans taken')
      subst same
      constructor
      · intro row
        have own := walked.sent row
        rw [credited.sent row] at own
        omega
      · intro within
        have credits (row : Nat) (last : lastRow (parts counted.tb.caps
            (feedbackChain control status) (getTxAttempts status)) = some row) :
            ((counted.tb.table row).sentSuccess + 1) % 65536 =
              (counted.tb.table row).sentSuccess + credit := by
          have own := walked.success row
          rw [decide_eq_true within, if_pos ⟨rfl, last⟩, credited.success row,
            if_pos last] at own
          exact own.symm
        constructor
        · obtain ⟨row, last⟩ : ∃ row, lastRow (parts counted.tb.caps
              (feedbackChain control status) (getTxAttempts status)) = some row :=
            exists_lastRow (Nat.pos_of_ne_zero tried) within
          have own := credits row last
          cases refused : status.noAck with
          | false => rfl
          | true =>
            have none' := credited.acknowledged refused
            omega
        · intro row last
          have own := credits row last
          omega
    · intro creditable alone
      obtain ⟨next, taken, walked⟩ := exists_staFeedbackRates counted control alone tried
      obtain ⟨fits, credits⟩ := creditable alone tried
      refine ⟨next, if getTxAttempts status ≤ askedFor (feedbackChain control status) then 1
        else 0, taken, sum_parts _ _ _, ?_, ?_, ?_, ?_⟩
      · intro row
        rw [walked.sent row, Nat.mod_eq_of_lt (fits row)]
      · intro row
        rw [walked.success row]
        by_cases within : getTxAttempts status ≤ askedFor (feedbackChain control status)
        · rw [decide_eq_true within]
          by_cases last : lastRow (parts counted.tb.caps (feedbackChain control status)
              (getTxAttempts status)) = some row
          · rw [if_pos ⟨rfl, last⟩, if_pos last, if_pos within,
              Nat.mod_eq_of_lt ((credits within).2 row last)]
          · rw [if_neg (fun both => last both.2), if_neg last, Nat.add_zero]
        · rw [decide_eq_false within, if_neg (fun both => Bool.false_ne_true both.1),
            if_neg within, ite_self, Nat.add_zero]
      · split
        · exact Nat.le_refl 1
        · exact Nat.zero_le 1
      · intro refused
        split
        · next within => exact absurd ((credits within).1.symm.trans refused) Bool.false_ne_true
        · rfl

/-- The table of a station that was just added, on 1 MHz and 2 MHz with one stream. -/
def freshTable : CountedTable where
  tb := initTable ⟨4, 2, 0b00011, 0b0001, 0b00011111111, 0b01, 0⟩ (-60) .zeroed
  sent_lt := fun _ => Nat.two_pow_pos 16
  sentSuccess_lt := fun _ => Nat.two_pow_pos 16

/-- One attempt at MCS 0 and 1 MHz that was not acknowledged. -/
def refusedOnce : TxStatus where
  noAck := true
  ampduInfo := 0
  rates := fun slot => if slot = 0 then ⟨0, 1⟩ else ⟨0, 0⟩

/-- A frame that was tried as often as asked for and was not acknowledged has a success. -/
theorem not_creditsHonestly_refusedOnce :
    ¬ CreditsHonestly freshTable (fun slot => if slot = 0 then 1 else 0) refusedOnce := by
  intro honest
  obtain ⟨next, credit, taken, credited⟩ := honest rfl
  have row : (staFeedbackRates freshTable.tb (fun slot => if slot = 0 then 1 else 0)
      refusedOnce).map (fun tb => (tb.table 0).sentSuccess) = some 1 := by decide
  have success := credited.success 0
  rw [taken, Option.map_some] at row
  rw [credited.acknowledged rfl, Option.some.inj row] at success
  exact absurd success (by decide)

end Rc
end Morse

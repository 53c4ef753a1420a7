import Mathlib.Algebra.Group.Nat.Defs
import Mathlib.Tactic.Common
import Morse.Twt.Defs

/-!
# The parameters of an element

A wake interval is told by a mantissa of sixteen bits and an exponent of five, a wake
duration by eight bits that count units of 256 or 1024 microseconds.  An access point
writes them for what it agreed and reads them from what it is sent; a station writes them
for what it is configured with.
-/

namespace Morse
namespace Twt

/-! ## What a station is configured with -/

/-- The operations of `enum morse_cmd_twt_conf_op` that set an agreement. -/
inductive TwtConfOp
  | configure
  | forceInstallAgreement
  | configureExplicit
  deriving DecidableEq, Repr

/-- `struct morse_cmd_req_set_twt_conf`; the wake interval is the union, as one number. -/
structure ReqSetTwtConf where
  opcode : TwtConfOp
  flowId : BitVec 8
  targetWakeTime : BitVec 64
  wakeInterval : BitVec 64
  wakeDurationUs : BitVec 32
  twtSetupCommand : BitVec 8
  deriving DecidableEq, Repr

/-- `explicit_twt.wake_interval_mantissa`, the first two octets of the union. -/
def ReqSetTwtConf.wakeIntervalMantissa (req : ReqSetTwtConf) : BitVec 16 :=
  req.wakeInterval.extractLsb' 0 16

/-- `explicit_twt.wake_interval_exponent`, the octet after them. -/
def ReqSetTwtConf.wakeIntervalExponent (req : ReqSetTwtConf) : BitVec 8 :=
  req.wakeInterval.extractLsb' 16 8

/-- `twt_calculate_wake_duration`, on signed integers. -/
def calculateWakeDuration (wakeDuration : BitVec 32) : BitVec 32 :=
  (wakeDuration + 256#32 - 1#32).sdiv 256#32

/-- `twt_calculate_wake_interval`. -/
def calculateWakeInterval (mantissa : BitVec 16) (exponent : Nat) : BitVec 64 :=
  mantissa.setWidth 64 * (1#64 <<< exponent)

/-- The loop of `twt_calculate_wake_interval_fields`. -/
def halveUntilFits (m : BitVec 64) (e : Nat) : BitVec 64 × Nat :=
  if 0xFFFF#64 < m then halveUntilFits (m >>> 1) (e + 1) else (m, e)
termination_by m.toNat
decreasing_by
  next large =>
    have above : (0xFFFF#64).toNat < m.toNat := large
    rw [BitVec.toNat_ushiftRight, Nat.shiftRight_eq_div_pow]
    have top : (0xFFFF#64).toNat = 65535 := by decide
    omega

/-- `twt_calculate_wake_interval_fields`: the mantissa and the exponent. -/
def calculateWakeIntervalFields (wakeInterval : BitVec 64) : BitVec 16 × Nat :=
  ((halveUntilFits wakeInterval 0).1.setWidth 16, (halveUntilFits wakeInterval 0).2)

/-- The mantissa and the exponent of a request. -/
def ReqSetTwtConf.fields (req : ReqSetTwtConf) : BitVec 16 × Nat :=
  match req.opcode with
  | .configureExplicit => (req.wakeIntervalMantissa, req.wakeIntervalExponent.toNat)
  | .configure | .forceInstallAgreement => calculateWakeIntervalFields req.wakeInterval

/-- `IEEE80211_TWT_REQTYPE_FLOWID`. -/
def twtReqtypeFlowid : BitVec 32 := 0x0380

/-- The flow and the exponent of a request in a request type. -/
def ReqSetTwtConf.reqType (req : ReqSetTwtConf) : BitVec 16 :=
  ((req.flowId.setWidth 32 <<< twtReqtypeFlowidOffset) &&& twtReqtypeFlowid).setWidth 16 |||
    ((BitVec.ofNat 32 req.fields.2 <<< twtReqtypeWakeIntExpOffset) &&&
      twtReqtypeWakeIntExp.setWidth 32).setWidth 16

/-- The agreement that `morse_twt_process_set_cmd` fills in. -/
def ReqSetTwtConf.agreement (req : ReqSetTwtConf) : AgreementData where
  wakeTimeUs := 0
  wakeIntervalUs := calculateWakeInterval req.fields.1 req.fields.2
  wakeDurationUs := req.wakeDurationUs
  control := 0
  params :=
    { reqType := req.reqType
      twt := 0
      minTwtDur := (calculateWakeDuration req.wakeDurationUs).setWidth 8
      mantissa := req.fields.1
      channel := 0 }

/-- The agreement with the setup command of the request. -/
def ReqSetTwtConf.requested (req : ReqSetTwtConf) : AgreementData :=
  { req.agreement with
    params :=
      { req.agreement.params with
        reqType := req.agreement.params.reqType ||| twtReqtypeRequest |||
          ((req.twtSetupCommand.setWidth 16 <<< twtReqtypeSetupCmdOffset) &&&
            twtReqtypeSetupCmd) } }

/-- The agreement with the target wake time of the request. -/
def ReqSetTwtConf.forced (req : ReqSetTwtConf) : AgreementData :=
  { req.agreement with
    params := { req.agreement.params with twt := req.targetWakeTime } }

/-- `morse_twt_process_set_cmd`, up to what is installed, or handed to
`morse_twt_requester_send`.  The firmware takes an agreement, or answers by an error. -/
def processSetCmd
    (active : BitVec 8 → Bool)
    (allocates : Bool)
    (firmware : AgreementData → Option Errno)
    (req : ReqSetTwtConf) : Except Errno AgreementData :=
  if active req.flowId then .error .eperm
  else if !allocates then .error .einval
  else if req.opcode = .forceInstallAgreement then
    match firmware req.forced with
    | some errno => .error errno
    | none => .ok req.forced
  else
    match firmware req.agreement with
    | some errno => .error errno
    | none => .ok req.requested

/-! ## What parameters denote -/

/-- The microseconds that a wake duration counts. -/
def durationUnit (control : BitVec 8) : Nat :=
  if ctrlFlagIsSet control twtControlWakeDurUnit then 1024 else 256

/-- The wake interval that a request asks for, in microseconds. -/
def ReqSetTwtConf.requestedUs (req : ReqSetTwtConf) : Nat :=
  match req.opcode with
  | .configureExplicit => req.wakeIntervalMantissa.toNat * 2 ^ req.wakeIntervalExponent.toNat
  | .configure | .forceInstallAgreement => req.wakeInterval.toNat

/-- The interval of a mantissa and an exponent is the requested one, but for what is
lost below the exponent. -/
def WithinRounding (requested mantissa exponent : Nat) : Prop :=
  mantissa * 2 ^ exponent ≤ requested ∧ requested < (mantissa + 1) * 2 ^ exponent

/-- Parameters denote a duration that is not shorter than requested, and the requested
interval. -/
structure Denotes (req : ReqSetTwtConf) (data : AgreementData) : Prop where
  duration : req.wakeDurationUs.toNat ≤ data.params.minTwtDur.toNat * durationUnit data.control
  interval : WithinRounding req.requestedUs data.params.mantissa.toNat
    (wakeIntExp data.params.reqType)

/-- Whatever a request leads to denotes what it asks for. -/
def ConfiguresAsRequested (req : ReqSetTwtConf) : Prop :=
  ∀ active allocates firmware data,
    processSetCmd active allocates firmware req = .ok data → Denotes req data

/-- Parameters that were read, with the interval they were taken for. -/
structure ReadsAs
    (data : AgreementData)
    (mantissa : BitVec 16)
    (exponent : BitVec 5)
    (minTwtDur : BitVec 8) : Prop where
  sameMantissa : data.params.mantissa = mantissa
  sameExponent : wakeIntExp data.params.reqType = exponent.toNat
  sameDuration : data.params.minTwtDur = minTwtDur
  sameInterval : data.wakeIntervalUs.toNat = mantissa.toNat * 2 ^ exponent.toNat

/-- What is written of an agreement is read back by the parser as it was. -/
def RoundTrips (mantissa : BitVec 16) (exponent : BitVec 5) (minTwtDur : BitVec 8) : Prop :=
  ∀ (data : AgreementData) (len : Nat) (srcAddr : Addr),
    wakeIntExp data.params.reqType = exponent.toNat →
      data.wakeIntervalUs.toNat = mantissa.toNat * 2 ^ exponent.toNat →
        data.wakeDurationUs.toNat = minTwtDur.toNat * durationUnit data.control →
          ReadsAs (TwtElement.agrData ⟨len, data.control, (updateParams data).params⟩)
              mantissa exponent minTwtDur ∧
            ∀ event, parseIe ⟨len, data.control, (updateParams data).params⟩ srcAddr true =
                .ok event →
              ∃ cmd, event.body = .setup cmd
                (TwtElement.agrData ⟨len, data.control, (updateParams data).params⟩)

/-! ## Written and read -/

theorem wakeIntExp_lt (reqType : BitVec 16) : wakeIntExp reqType < 32 := by
  have masked : (reqType &&& twtReqtypeWakeIntExp).toNat ≤ 0x7C00 := by
    exact Nat.and_le_right
  have offset : twtReqtypeWakeIntExpOffset = 10 := by decide
  rw [wakeIntExp, BitVec.toNat_ushiftRight, offset]
  omega

variable {exponent : Nat}

theorem power_signExtend (small : exponent < 32) :
    ((1#32 <<< exponent).signExtend 64).toNat =
      if exponent = 31 then 2 ^ 64 - 2 ^ 31 else 2 ^ exponent := by
  have all : ∀ place : Fin 32, ((1#32 <<< place.val).signExtend 64).toNat =
      if place.val = 31 then 2 ^ 64 - 2 ^ 31 else 2 ^ place.val := by
    decide
  exact all ⟨exponent, small⟩

theorem power_setWidth (small : exponent < 32) :
    ((1#32 <<< exponent).setWidth 64).toNat = 2 ^ exponent := by
  have all : ∀ place : Fin 32, ((1#32 <<< place.val).setWidth 64).toNat = 2 ^ place.val := by
    decide
  exact all ⟨exponent, small⟩

variable {params : TwtParams}

theorem calculateWakeIntervalUs_toNat (inside : wakeIntExp params.reqType ≠ 31) :
    (calculateWakeIntervalUs params).toNat =
      params.mantissa.toNat * 2 ^ wakeIntExp params.reqType := by
  have small := wakeIntExp_lt params.reqType
  have mantissa := params.mantissa.isLt
  have power : 2 ^ wakeIntExp params.reqType ≤ 2 ^ 30 :=
    Nat.pow_le_pow_right (by decide) (by omega)
  have product := Nat.mul_le_mul (Nat.le_of_lt mantissa) power
  rw [calculateWakeIntervalUs, BitVec.toNat_mul, power_signExtend small, if_neg inside,
    BitVec.toNat_setWidth, Nat.mod_eq_of_lt (show params.mantissa.toNat < 2 ^ 64 by omega)]
  omega

theorem negated_product_eq_iff (inside : power ≤ modulus) (positive : 0 < power)
    (small : 2 * (factor * power) < modulus) :
    factor * (modulus - power) % modulus = factor * power ↔ factor = 0 := by
  constructor
  · intro equal
    have quotient := Nat.div_add_mod (factor * (modulus - power)) modulus
    have whole : factor * (modulus - power) + factor * power = modulus * factor := by
      rw [← Nat.mul_add, Nat.sub_add_cancel inside, Nat.mul_comm]
    have twice : (2 * (factor * power)) % modulus = 0 := by
      have total : modulus * (factor * (modulus - power) / modulus) + 2 * (factor * power) =
          modulus * factor := by omega
      have reduced := congrArg (fun value => value % modulus) total
      simp only [Nat.mul_add_mod, Nat.mul_mod_right] at reduced
      exact reduced
    rw [Nat.mod_eq_of_lt small] at twice
    have none : factor * power = 0 := by omega
    exact (Nat.mul_eq_zero.mp none).resolve_right (Nat.ne_of_gt positive)
  · rintro rfl
    rw [Nat.zero_mul, Nat.zero_mul, Nat.zero_mod]

theorem calculateWakeIntervalUs_largest (largest : wakeIntExp params.reqType = 31) :
    (calculateWakeIntervalUs params).toNat = params.mantissa.toNat * 2 ^ 31 ↔
      params.mantissa = 0#16 := by
  have small := wakeIntExp_lt params.reqType
  rw [calculateWakeIntervalUs, BitVec.toNat_mul, power_signExtend small, if_pos largest,
    BitVec.toNat_setWidth, Nat.mod_eq_of_lt (show params.mantissa.toNat < 2 ^ 64 by omega)]
  rw [negated_product_eq_iff (by decide) (by decide) (by omega)]
  exact ⟨fun none => BitVec.eq_of_toNat_eq none, fun zero => congrArg BitVec.toNat zero⟩

theorem updateParams_mantissa
    (interval : data.wakeIntervalUs.toNat =
      mantissa.toNat * 2 ^ wakeIntExp data.params.reqType) :
    (updateParams data).params.mantissa = mantissa := by
  have small := wakeIntExp_lt data.params.reqType
  have bound := mantissa.isLt
  apply BitVec.eq_of_toNat_eq
  change ((data.wakeIntervalUs / (1#32 <<< wakeIntExp data.params.reqType).setWidth 64).setWidth
    16).toNat = mantissa.toNat
  rw [BitVec.toNat_setWidth, BitVec.toNat_udiv, power_setWidth small, interval,
    Nat.mul_div_cancel _ (Nat.pow_pos (by decide))]
  exact Nat.mod_eq_of_lt bound

theorem updateParams_minTwtDur
    (duration : data.wakeDurationUs.toNat = minTwtDur.toNat * durationUnit data.control) :
    (updateParams data).params.minTwtDur = minTwtDur := by
  apply BitVec.eq_of_toNat_eq
  change ((if ctrlFlagIsSet data.control twtControlWakeDurUnit then data.wakeDurationUs / 1024
    else data.wakeDurationUs / 256).setWidth 8).toNat = minTwtDur.toNat
  rw [durationUnit] at duration
  rw [BitVec.toNat_setWidth]
  split at duration
  · next unit =>
      have divisor : (1024 : BitVec 32).toNat = 1024 := by decide
      rw [if_pos unit, BitVec.toNat_udiv, divisor]
      omega
  · next unit =>
      have divisor : (256 : BitVec 32).toNat = 256 := by decide
      rw [if_neg unit, BitVec.toNat_udiv, divisor]
      omega

theorem body_parseIe (parsed : parseIe element srcAddr allocates = .ok event) :
    ∃ cmd, event.body = .setup cmd element.agrData := by
  unfold parseIe at parsed
  repeat' split at parsed
  all_goals cases parsed
  exact ⟨_, rfl⟩

theorem interval_agrData
    (interval : data.wakeIntervalUs.toNat =
      mantissa.toNat * 2 ^ wakeIntExp data.params.reqType)
    (len : Nat) :
    (TwtElement.agrData ⟨len, data.control, (updateParams data).params⟩).wakeIntervalUs.toNat =
        mantissa.toNat * 2 ^ wakeIntExp data.params.reqType ↔
      wakeIntExp data.params.reqType ≠ 31 ∨ mantissa = 0#16 := by
  have written := updateParams_mantissa interval
  change (calculateWakeIntervalUs (updateParams data).params).toNat = _ ↔ _
  have exponent : wakeIntExp (updateParams data).params.reqType =
      wakeIntExp data.params.reqType := rfl
  by_cases largest : wakeIntExp data.params.reqType = 31
  · have computed := calculateWakeIntervalUs_largest (exponent.trans largest)
    rw [written] at computed
    rw [largest, computed]
    simp
  · have computed := calculateWakeIntervalUs_toNat
      (fun equal => largest (exponent.symm.trans equal))
    rw [written, exponent] at computed
    rw [computed]
    simp [largest]

theorem roundTrips_iff (mantissa : BitVec 16) (exponent : BitVec 5) (minTwtDur : BitVec 8) :
    RoundTrips mantissa exponent minTwtDur ↔ exponent ≠ 31#5 ∨ mantissa = 0#16 := by
  have largest : exponent.toNat ≠ 31 ↔ exponent ≠ 31#5 := by
    have value : (31#5).toNat = 31 := by decide
    constructor
    · intro other same
      exact other (by rw [same, value])
    · intro other same
      exact other (BitVec.eq_of_toNat_eq (same.trans value.symm))
  constructor
  · intro roundTrips
    let data : AgreementData :=
      { wakeTimeUs := 0
        wakeIntervalUs := BitVec.ofNat 64 (mantissa.toNat * 2 ^ exponent.toNat)
        wakeDurationUs := BitVec.ofNat 32 (minTwtDur.toNat * 256)
        control := 0
        params := ⟨exponent.setWidth 16 <<< 10, 0, 0, 0, 0⟩ }
    have exponentEq : wakeIntExp data.params.reqType = exponent.toNat := by
      have all : ∀ field : BitVec 5, wakeIntExp (field.setWidth 16 <<< 10) = field.toNat := by
        decide
      exact all exponent
    have intervalEq : data.wakeIntervalUs.toNat = mantissa.toNat * 2 ^ exponent.toNat := by
      have power : 2 ^ exponent.toNat ≤ 2 ^ 31 :=
        Nat.pow_le_pow_right (by decide) (Nat.le_of_lt_succ exponent.isLt)
      have product := Nat.mul_le_mul (Nat.le_of_lt mantissa.isLt) power
      rw [BitVec.toNat_ofNat]
      omega
    have durationEq : data.wakeDurationUs.toNat =
        minTwtDur.toNat * durationUnit data.control := by
      have unit : durationUnit data.control = 256 := by
        change durationUnit 0 = 256
        decide
      rw [unit]
      rw [BitVec.toNat_ofNat]
      omega
    have reads := (roundTrips data 15 0 exponentEq intervalEq durationEq).1.sameInterval
    rw [← exponentEq] at intervalEq reads
    have computed := (interval_agrData intervalEq 15).mp reads
    rw [exponentEq, largest] at computed
    exact computed
  · intro fits data len srcAddr exponentEq intervalEq durationEq
    refine ⟨⟨?_, exponentEq, updateParams_minTwtDur durationEq, ?_⟩, fun event => body_parseIe⟩
    · rw [← exponentEq] at intervalEq
      exact updateParams_mantissa intervalEq
    · rw [← largest, ← exponentEq] at fits
      rw [← exponentEq] at intervalEq ⊢
      exact (interval_agrData intervalEq len).mpr fits

/-! ## Configured -/

theorem wakeIntExp_eq (reqType : BitVec 16) :
    wakeIntExp reqType = reqType.toNat / 1024 % 32 := by
  have offset : twtReqtypeWakeIntExpOffset = 10 := by decide
  have mask : (twtReqtypeWakeIntExp >>> 10).toNat = 2 ^ 5 - 1 := by decide
  rw [wakeIntExp, offset, BitVec.ushiftRight_and_distrib, BitVec.toNat_and, mask,
    Nat.and_two_pow_sub_one_eq_mod, BitVec.toNat_ushiftRight, Nat.shiftRight_eq_div_pow]

theorem wakeIntExp_or (apart : other &&& twtReqtypeWakeIntExp = 0#16) :
    wakeIntExp (reqType ||| other) = wakeIntExp reqType := by
  rw [wakeIntExp, wakeIntExp, BitVec.and_or_distrib_right, apart, BitVec.or_zero]

theorem wakeIntExp_field (exponent : Nat) :
    wakeIntExp (((BitVec.ofNat 32 exponent <<< twtReqtypeWakeIntExpOffset) &&&
      twtReqtypeWakeIntExp.setWidth 32).setWidth 16) = exponent % 32 := by
  have offset : twtReqtypeWakeIntExpOffset = 10 := by decide
  have mask : (twtReqtypeWakeIntExp.setWidth 32).setWidth 16 = twtReqtypeWakeIntExp := by
    decide
  rw [BitVec.setWidth_and, mask, wakeIntExp, BitVec.and_assoc, BitVec.and_self, ← wakeIntExp,
    wakeIntExp_eq, offset, BitVec.toNat_setWidth, BitVec.toNat_shiftLeft, BitVec.toNat_ofNat]
  omega

theorem wakeIntExp_reqType (req : ReqSetTwtConf) :
    wakeIntExp req.reqType = req.fields.2 % 32 := by
  have apart : ((req.flowId.setWidth 32 <<< twtReqtypeFlowidOffset) &&&
      twtReqtypeFlowid).setWidth 16 &&& twtReqtypeWakeIntExp = 0#16 := by
    have masks : twtReqtypeFlowid.setWidth 16 &&& twtReqtypeWakeIntExp = 0#16 := by decide
    rw [BitVec.setWidth_and, BitVec.and_assoc, masks, BitVec.and_zero]
  rw [ReqSetTwtConf.reqType, BitVec.or_comm, wakeIntExp_or apart, wakeIntExp_field]

theorem wakeIntExp_requested (req : ReqSetTwtConf) :
    wakeIntExp req.requested.params.reqType = req.fields.2 % 32 := by
  have request : twtReqtypeRequest &&& twtReqtypeWakeIntExp = 0#16 := by decide
  have command : ((req.twtSetupCommand.setWidth 16 <<< twtReqtypeSetupCmdOffset) &&&
      twtReqtypeSetupCmd) &&& twtReqtypeWakeIntExp = 0#16 := by
    have masks : twtReqtypeSetupCmd &&& twtReqtypeWakeIntExp = 0#16 := by decide
    rw [BitVec.and_assoc, masks, BitVec.and_zero]
  change wakeIntExp (req.reqType ||| twtReqtypeRequest ||| _) = _
  rw [wakeIntExp_or command, wakeIntExp_or request, wakeIntExp_reqType]

theorem halveUntilFits_spec (m : BitVec 64) (e : Nat) :
    ∃ count, (halveUntilFits m e).2 = e + count ∧
      (halveUntilFits m e).1.toNat = m.toNat / 2 ^ count ∧ m.toNat / 2 ^ count ≤ 65535 ∧
        ∀ fewer, fewer < count → 65535 < m.toNat / 2 ^ fewer := by
  have top : (0xFFFF#64).toNat = 65535 := by decide
  induction m, e using halveUntilFits.induct with
  | case1 m e large ih =>
    have above : (0xFFFF#64).toNat < m.toNat := large
    have halved : ∀ count, (m >>> 1).toNat / 2 ^ count = m.toNat / 2 ^ (count + 1) := by
      intro count
      rw [BitVec.toNat_ushiftRight, Nat.shiftRight_eq_div_pow, Nat.div_div_eq_div_mul,
        ← Nat.pow_add, Nat.add_comm]
    obtain ⟨count, exponent, mantissa, fits, least⟩ := ih
    rw [halved] at mantissa fits
    rw [halveUntilFits, if_pos large]
    refine ⟨count + 1, by omega, mantissa, fits, ?_⟩
    intro fewer below
    cases fewer with
    | zero =>
      omega
    | succ fewer =>
      rw [← halved]
      exact least fewer (by omega)
  | case2 m e small =>
    have below : ¬(0xFFFF#64).toNat < m.toNat := small
    rw [halveUntilFits, if_neg small]
    refine ⟨0, rfl, ?_, ?_, ?_⟩
    · rw [Nat.pow_zero, Nat.div_one]
    · omega
    · omega

theorem calculateWakeIntervalFields_spec (wakeInterval : BitVec 64) :
    (calculateWakeIntervalFields wakeInterval).1.toNat =
        wakeInterval.toNat / 2 ^ (calculateWakeIntervalFields wakeInterval).2 ∧
      wakeInterval.toNat / 2 ^ (calculateWakeIntervalFields wakeInterval).2 ≤ 65535 ∧
        ∀ fewer, fewer < (calculateWakeIntervalFields wakeInterval).2 →
          65535 < wakeInterval.toNat / 2 ^ fewer := by
  obtain ⟨count, exponent, mantissa, fits, least⟩ := halveUntilFits_spec wakeInterval 0
  rw [Nat.zero_add] at exponent
  rw [calculateWakeIntervalFields, exponent, BitVec.toNat_setWidth, mantissa]
  exact ⟨Nat.mod_eq_of_lt (by omega), fits, least⟩

theorem withinRounding_div (requested exponent : Nat) :
    WithinRounding requested (requested / 2 ^ exponent) exponent := by
  have positive : 0 < 2 ^ exponent := Nat.pow_pos (by decide)
  refine ⟨Nat.div_mul_le_self requested _, ?_⟩
  rw [Nat.mul_comm]
  exact Nat.lt_mul_div_succ requested positive

theorem withinRounding_mod_iff (within : WithinRounding requested mantissa exponent)
    (positive : 0 < mantissa) :
    WithinRounding requested mantissa (exponent % 32) ↔ exponent < 32 := by
  constructor
  · intro masked
    by_contra large
    have power : 2 * 2 ^ (exponent % 32) ≤ 2 ^ exponent := by
      rw [← Nat.pow_succ']
      exact Nat.pow_le_pow_right (by decide) (by omega)
    have lower := Nat.mul_le_mul_left mantissa power
    have upper := Nat.lt_of_le_of_lt within.1 masked.2
    rw [Nat.add_mul] at upper
    have scaled : mantissa * (2 * 2 ^ (exponent % 32)) =
        mantissa * 2 ^ (exponent % 32) + mantissa * 2 ^ (exponent % 32) := by
      rw [Nat.mul_left_comm, Nat.two_mul]
    have once := Nat.mul_le_mul_right (2 ^ (exponent % 32)) positive
    omega
  · intro small
    rw [Nat.mod_eq_of_lt small]
    exact within

theorem calculateWakeIntervalFields_lt_iff (wakeInterval : BitVec 64) :
    (calculateWakeIntervalFields wakeInterval).2 < 32 ↔ wakeInterval.toNat < 2 ^ 47 := by
  obtain ⟨_, fits, least⟩ := calculateWakeIntervalFields_spec wakeInterval
  constructor
  · intro small
    have power : 2 ^ (calculateWakeIntervalFields wakeInterval).2 ≤ 2 ^ 31 :=
      Nat.pow_le_pow_right (by decide) (by omega)
    have less := Nat.div_le_div_left power (Nat.pow_pos (by decide))
      (a := wakeInterval.toNat)
    omega
  · by_contra large
    have more := least 31 (by omega)
    omega

/-- A request is encoded as it should be: its duration fits eight bits of 256
microseconds, and the exponent of its interval five bits. -/
def ReqSetTwtConf.Encodable (req : ReqSetTwtConf) : Prop :=
  req.wakeDurationUs.toNat ≤ 255 * 256 ∧
    match req.opcode with
    | .configureExplicit => req.wakeIntervalMantissa = 0#16 ∨ req.wakeIntervalExponent.toNat < 32
    | .configure | .forceInstallAgreement => req.wakeInterval.toNat < 2 ^ 47

theorem calculateWakeDuration_toNat (short : wakeDuration.toNat ≤ 255 * 256) :
    (calculateWakeDuration wakeDuration).toNat = (wakeDuration.toNat + 255) / 256 := by
  have unit : (256#32).toNat = 256 := by decide
  have raised : (wakeDuration + 256#32 - 1#32).toNat = wakeDuration.toNat + 255 := by
    bv_omega
  have positive : (wakeDuration + 256#32 - 1#32).msb = false := by
    rw [BitVec.msb_eq_false_iff_two_mul_lt]
    omega
  have unitPositive : (256#32).msb = false := by decide
  rw [calculateWakeDuration, BitVec.sdiv_eq, positive, unitPositive, BitVec.udiv_eq,
    BitVec.toNat_udiv, raised, unit]

theorem duration_le_iff (wakeDuration : BitVec 32) :
    wakeDuration.toNat ≤ ((calculateWakeDuration wakeDuration).setWidth 8).toNat * 256 ↔
      wakeDuration.toNat ≤ 255 * 256 := by
  constructor
  · intro covered
    have units := Nat.le_of_lt_succ ((calculateWakeDuration wakeDuration).setWidth 8).isLt
    exact Nat.le_trans covered (Nat.mul_le_mul_right 256 units)
  · intro short
    have units : (wakeDuration.toNat + 255) / 256 < 2 ^ 8 := by omega
    have covers : ∀ duration : Nat, duration ≤ (duration + 255) / 256 * 256 := by omega
    rw [BitVec.toNat_setWidth, calculateWakeDuration_toNat short, Nat.mod_eq_of_lt units]
    exact covers _

theorem interval_iff (req : ReqSetTwtConf) :
    WithinRounding req.requestedUs req.fields.1.toNat (req.fields.2 % 32) ↔
      match req.opcode with
      | .configureExplicit => req.wakeIntervalMantissa = 0#16 ∨ req.wakeIntervalExponent.toNat < 32
      | .configure | .forceInstallAgreement => req.wakeInterval.toNat < 2 ^ 47 := by
  have searched : WithinRounding req.wakeInterval.toNat
      (calculateWakeIntervalFields req.wakeInterval).1.toNat
        ((calculateWakeIntervalFields req.wakeInterval).2 % 32) ↔
      req.wakeInterval.toNat < 2 ^ 47 := by
    obtain ⟨mantissa, fits, least⟩ := calculateWakeIntervalFields_spec req.wakeInterval
    rw [← calculateWakeIntervalFields_lt_iff]
    have within := withinRounding_div req.wakeInterval.toNat
      (calculateWakeIntervalFields req.wakeInterval).2
    rw [← mantissa] at within
    by_cases small : (calculateWakeIntervalFields req.wakeInterval).2 < 32
    · rw [Nat.mod_eq_of_lt small]
      exact iff_of_true within small
    · apply withinRounding_mod_iff within
      -- One halving less left more than sixteen bits.
      have before := least ((calculateWakeIntervalFields req.wakeInterval).2 - 1) (by omega)
      have halved : ∀ count, 0 < count → req.wakeInterval.toNat / 2 ^ count =
          req.wakeInterval.toNat / 2 ^ (count - 1) / 2 := by
        intro count positive
        rw [Nat.div_div_eq_div_mul, ← Nat.pow_succ, Nat.succ_eq_add_one,
          Nat.sub_add_cancel positive]
      rw [mantissa, halved _ (by omega)]
      omega
  have explicit : WithinRounding
      (req.wakeIntervalMantissa.toNat * 2 ^ req.wakeIntervalExponent.toNat)
      req.wakeIntervalMantissa.toNat (req.wakeIntervalExponent.toNat % 32) ↔
      req.wakeIntervalMantissa = 0#16 ∨ req.wakeIntervalExponent.toNat < 32 := by
    by_cases zero : req.wakeIntervalMantissa = 0#16
    · have none : req.wakeIntervalMantissa.toNat = 0 := congrArg BitVec.toNat zero
      rw [none]
      refine iff_of_true ⟨?_, ?_⟩ (.inl zero)
      · rw [Nat.zero_mul, Nat.zero_mul]
      · rw [Nat.zero_mul, Nat.one_mul]
        exact Nat.pow_pos (by decide)
    · have positive : 0 < req.wakeIntervalMantissa.toNat := by
        apply Nat.pos_of_ne_zero
        intro none
        exact zero (BitVec.eq_of_toNat_eq none)
      rw [or_iff_right zero]
      refine withinRounding_mod_iff ⟨Nat.le_refl _, ?_⟩ positive
      exact Nat.mul_lt_mul_of_pos_right (Nat.lt_succ_self _) (Nat.pow_pos (by decide))
  unfold ReqSetTwtConf.requestedUs ReqSetTwtConf.fields
  cases req.opcode with
  | configure => exact searched
  | forceInstallAgreement => exact searched
  | configureExplicit => exact explicit

theorem processSetCmd_eq_ok (done : processSetCmd active allocates firmware req = .ok data) :
    data = req.forced ∨ data = req.requested := by
  unfold processSetCmd at done
  repeat' split at done
  all_goals cases done
  · exact .inl rfl
  · exact .inr rfl

theorem configuresAsRequested_iff (req : ReqSetTwtConf) :
    ConfiguresAsRequested req ↔ req.Encodable := by
  have denotes : ∀ data, data = req.forced ∨ data = req.requested →
      (Denotes req data ↔ req.Encodable) := by
    intro data which
    have fields : wakeIntExp data.params.reqType = req.fields.2 % 32 ∧
        data.params.mantissa = req.fields.1 ∧
          data.params.minTwtDur = (calculateWakeDuration req.wakeDurationUs).setWidth 8 ∧
            durationUnit data.control = 256 := by
      have unit : durationUnit 0 = 256 := by decide
      rcases which with rfl | rfl
      · exact ⟨wakeIntExp_reqType req, rfl, rfl, unit⟩
      · exact ⟨wakeIntExp_requested req, rfl, rfl, unit⟩
    obtain ⟨exponent, mantissa, minTwtDur, unit⟩ := fields
    rw [ReqSetTwtConf.Encodable, ← duration_le_iff, ← interval_iff]
    constructor
    · rintro ⟨duration, interval⟩
      rw [minTwtDur, unit] at duration
      rw [mantissa, exponent] at interval
      exact ⟨duration, interval⟩
    · rintro ⟨duration, interval⟩
      refine ⟨?_, ?_⟩
      · rw [minTwtDur, unit]
        exact duration
      · rw [mantissa, exponent]
        exact interval
  constructor
  · intro configures
    have accepted : ∃ data,
        processSetCmd (fun _ => false) true (fun _ => none) req = .ok data := by
      unfold processSetCmd
      by_cases forces : req.opcode = .forceInstallAgreement
      · exact ⟨req.forced, by simp [forces]⟩
      · exact ⟨req.requested, by simp [forces]⟩
    obtain ⟨data, done⟩ := accepted
    exact (denotes data (processSetCmd_eq_ok done)).mp (configures _ _ _ data done)
  · intro encodable active allocates firmware data done
    exact (denotes data (processSetCmd_eq_ok done)).mpr encodable

/-- Parameters are written, read and configured as they should be exactly if the largest
exponent has nothing to multiply, and the request is encodable. -/
theorem parameters_agree_iff (mantissa : BitVec 16) (exponent : BitVec 5) (minTwtDur : BitVec 8)
    (req : ReqSetTwtConf) :
    RoundTrips mantissa exponent minTwtDur ∧ ConfiguresAsRequested req ↔
      (exponent ≠ 31#5 ∨ mantissa = 0#16) ∧ req.Encodable := by
  rw [roundTrips_iff, configuresAsRequested_iff]

/-- A wake interval of one power of two with the largest exponent is read as another, and
a duration of 65281 microseconds is configured as none. -/
theorem not_parameters_agree :
    ¬∀ mantissa exponent minTwtDur req,
      RoundTrips mantissa exponent minTwtDur ∧ ConfiguresAsRequested req := by
  intro always
  have agree := always 1#16 31#5 0#8 ⟨.configure, 0, 0, 0, 65281, 0⟩
  rw [roundTrips_iff] at agree
  exact absurd agree.1 (by decide)

end Twt
end Morse

import Burble.Presence.BleSpa

namespace Burble.Presence

/-- `BleSpaError` of the Zig kernel. -/
inductive BleSpaError
  | badLength
  | badMagic
  | badVersion
  | badFrameType
  | staleTimestamp
  | badMac
  deriving DecidableEq, Repr

/-- The kernel's verifier; the caller gives the time and keeps the nonces. -/
def bleSpaVerify (hmac : Hmac) (payload secret : List UInt8) (nowS : UInt32) : Except BleSpaError Unit :=
  if payload.length ≠ 24 then .error .badLength
  else if payload.getD 0 0 ≠ 0x42 then .error .badMagic
  else if payload.getD 1 0 >>> 4 ≠ 0x1 then .error .badVersion
  else if payload.getD 1 0 &&& 0x0F ≠ 0x1 then .error .badFrameType
  else
    let ts : UInt32 := ((payload.getD 2 0).toUInt32 <<< 24) ||| ((payload.getD 3 0).toUInt32 <<< 16) |||
      ((payload.getD 4 0).toUInt32 <<< 8) ||| (payload.getD 5 0).toUInt32
    let diff := if ts ≤ nowS then nowS - ts else ts - nowS
    if 30 < diff then .error .staleTimestamp
    else
      let msg := utf8 "BRBL-KNOCK-v1" ++ payload.take 12
      let expected := (hmac.digest secret msg).take 12
      let got := (payload.drop 12).take 12
      if got ≠ expected then .error .badMac else .ok ()

/-- What `verify_knock` calls the kernel's answers. -/
def verdictOf : Except BleSpaError Unit → Verdict
  | .ok () => .ok
  | .error .badLength => .error .badLength
  | .error .badMagic => .error .badMagic
  | .error .badVersion => .error .badVersion
  | .error .badFrameType => .error .badFrameType
  | .error .staleTimestamp => .error .staleTimestamp
  | .error .badMac => .error .badMac

section Time

/-- Four bytes shifted into one word are their big-endian number. -/
theorem shifted_toNat (a b c d : UInt8) :
    ((a.toUInt32 <<< 24) ||| (b.toUInt32 <<< 16) ||| (c.toUInt32 <<< 8) ||| d.toUInt32).toNat = ofBigEndian [a, b, c, d] := by
  have first : a.toNat < 256 := a.toNat_lt
  have second : b.toNat < 256 := b.toNat_lt
  have third : c.toNat < 256 := c.toNat_lt
  have fourth : d.toNat < 256 := d.toNat_lt
  have value : ofBigEndian [a, b, c, d] = d.toNat + 256 * (c.toNat + 256 * (b.toNat + 256 * (a.toNat + 256 * 0))) := rfl
  have byte (x : UInt8) (k : Nat) (small : k ≤ 24) : x.toNat <<< k % 2 ^ 32 = x.toNat <<< k := by
    apply Nat.mod_eq_of_lt
    calc x.toNat <<< k = x.toNat * 2 ^ k := Nat.shiftLeft_eq ..
      _ < 2 ^ 8 * 2 ^ k := Nat.mul_lt_mul_of_pos_right x.toNat_lt (Nat.two_pow_pos k)
      _ = 2 ^ (8 + k) := (Nat.pow_add ..).symm
      _ ≤ 2 ^ 32 := Nat.pow_le_pow_right (by decide) (by omega)
  have two : a.toNat <<< 24 ||| b.toNat <<< 16 = (a.toNat * 256 + b.toNat) <<< 16 := by
    rw [← Nat.shiftLeft_add_eq_or_of_lt (by rw [Nat.shiftLeft_eq]; omega), Nat.shiftLeft_eq, Nat.shiftLeft_eq, Nat.shiftLeft_eq]
    omega
  have three : (a.toNat * 256 + b.toNat) <<< 16 ||| c.toNat <<< 8 = ((a.toNat * 256 + b.toNat) * 256 + c.toNat) <<< 8 := by
    rw [← Nat.shiftLeft_add_eq_or_of_lt (by rw [Nat.shiftLeft_eq]; omega), Nat.shiftLeft_eq, Nat.shiftLeft_eq, Nat.shiftLeft_eq]
    omega
  rw [value, UInt32.toNat_or, UInt32.toNat_or, UInt32.toNat_or, UInt32.toNat_shiftLeft, UInt32.toNat_shiftLeft,
    UInt32.toNat_shiftLeft]
  change a.toNat <<< 24 % 2 ^ 32 ||| b.toNat <<< 16 % 2 ^ 32 ||| c.toNat <<< 8 % 2 ^ 32 ||| d.toNat = _
  rw [byte a 24 (by decide), byte b 16 (by decide), byte c 8 (by decide), two, three,
    ← Nat.shiftLeft_add_eq_or_of_lt fourth, Nat.shiftLeft_eq]
  omega

/-- The distance of two times is no more than the window, whichever comes first. -/
theorem diff_le_iff (ts now : UInt32) :
    ¬ 30 < (if ts ≤ now then now - ts else ts - now) ↔ withinWindow ts.toNat now.toNat = true := by
  rw [withinWindow, decide_eq_true_iff, windowS, UInt32.lt_iff_toNat_lt]
  by_cases order : ts ≤ now
  · rw [if_pos order, UInt32.toNat_sub_of_le _ _ order]
    have le := UInt32.le_iff_toNat_le.mp order
    change ¬ 30 < _ ↔ _
    omega
  · rw [if_neg order, UInt32.toNat_sub_of_le _ _ (UInt32.le_of_lt (UInt32.not_le.mp order))]
    have lt := UInt32.lt_iff_toNat_lt.mp (UInt32.not_le.mp order)
    change ¬ 30 < _ ↔ _
    omega

end Time

section Agreement
variable (hmac : Hmac) {payload : List UInt8}

theorem read_ts (long : payload.length = payloadBytes) : (Frame.read payload).ts =
    (((payload.getD 2 0).toUInt32 <<< 24) ||| ((payload.getD 3 0).toUInt32 <<< 16) |||
      ((payload.getD 4 0).toUInt32 <<< 8) ||| (payload.getD 5 0).toUInt32).toNat := by
  obtain ⟨magic, verType, a, b, c, d, rest, rfl⟩ : ∃ magic verType a b c d rest,
      payload = magic :: verType :: a :: b :: c :: d :: rest := by
    match payload, long with
    | magic :: verType :: a :: b :: c :: d :: rest, _ => exact ⟨magic, verType, a, b, c, d, rest, rfl⟩
  exact (shifted_toNat a b c d).symm

/-- The kernel's verifier answers as `verify_knock` does without its ledger. -/
theorem bleSpaVerify_eq (payload secret : List UInt8) (nowS : UInt32) (nonces : Nonces) :
    verifyKnock hmac payload secret nowS.toNat false nonces = (verdictOf (bleSpaVerify hmac payload secret nowS), nonces) := by
  unfold verifyKnock bleSpaVerify
  by_cases long : payload.length = payloadBytes
  swap
  · rw [if_pos long, if_pos (show payload.length ≠ 24 from long)]
    rfl
  rw [if_neg (not_not.mpr long), if_neg (not_not.mpr (show payload.length = 24 from long))]
  dsimp only
  rw [read_ts long]
  have stale (ts : UInt32) : (30 < if ts ≤ nowS then nowS - ts else ts - nowS) = ¬ withinWindow ts.toNat nowS.toNat := by
    rw [← diff_le_iff, not_not]
  simp only [stale, Frame.read, magic, wireVersion, ftKnock, knockMac, knockMacBytes, labelKnock, Bool.false_eq_true, if_false]
  split_ifs <;> rfl

theorem verdictOf_eq_ok {answer : Except BleSpaError Unit} (ok : verdictOf answer = .ok) : answer = .ok () := by
  cases answer with
  | ok value => rfl
  | error reason => cases reason <;> cases ok

/-- Both verifiers refuse a payload for one reason or accept it, and they accept each knock that is in time. -/
theorem knock_verifiers_agree (hmac : Hmac) :
    (∀ payload secret (nowS : UInt32) nonces, verifyKnock hmac payload secret nowS.toNat false nonces =
      (verdictOf (bleSpaVerify hmac payload secret nowS), nonces)) ∧
    ∀ secret nonce6 (ts : Nat) (nowS : UInt32) nonces, nonce6.length = 6 → ts < 2 ^ 32 →
      withinWindow ts nowS.toNat = true →
      verifyKnock hmac (encodeKnock hmac secret ts nonce6) secret nowS.toNat false nonces = (.ok, nonces) ∧
        bleSpaVerify hmac (encodeKnock hmac secret ts nonce6) secret nowS = .ok () := by
  refine ⟨bleSpaVerify_eq hmac, fun secret nonce6 ts nowS nonces six fits inTime => ?_⟩
  have accepted : verifyKnock hmac (encodeKnock hmac secret ts nonce6) secret nowS.toNat false nonces = (.ok, nonces) := by
    rw [verifyKnock_encodeKnock hmac secret six fits, if_pos inTime, if_neg Bool.false_ne_true]
  refine ⟨accepted, verdictOf_eq_ok ?_⟩
  rw [bleSpaVerify_eq] at accepted
  exact congrArg Prod.fst accepted

end Agreement

end Burble.Presence

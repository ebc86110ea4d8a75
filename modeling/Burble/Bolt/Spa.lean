import Burble.Base64
import Burble.Json

namespace Burble.Bolt

/-- Milliseconds of clock skew accepted between sender and receiver. -/
def windowMs : Int := 30000

def macBytes : Nat := 16

/-- HMAC-SHA256 of a text under a secret: code outside this repository. -/
abbrev Hmac := String → String → List UInt8

/-- The replay-protection table: each nonce seen with its expiry. -/
abbrev Nonces := FiniteMap String Int

inductive SpaError
  | missingSpa
  | malformedSpa
  | staleTimestamp
  | badMac
  | replayedNonce
  deriving DecidableEq, Repr

/-- What a verification comes to: a return value, or an exception. -/
inductive Verdict
  | ok
  | error (reason : SpaError)
  | raised
  deriving DecidableEq, Repr

/-- A well-formed `"spa"` object. -/
structure Tag where
  ts : Int
  nonce : String
  mac : String
  deriving DecidableEq

/-- What one tag speaks for: a time, a nonce and the text of a sender. -/
structure Stamp where
  ts : Int
  nonce : String
  sender : String
  deriving DecidableEq

/-- The text under the MAC. -/
def Stamp.text (stamp : Stamp) : String := toString stamp.ts ++ ":" ++ stamp.nonce ++ ":" ++ stamp.sender

def computeMac (hmac : Hmac) (secret : String) (stamp : Stamp) : String :=
  Base64.urlEncode64 ((hmac secret stamp.text).take macBytes)

/-- `to_string(Map.get(payload, "from", ""))`, or nothing where it raises. -/
def senderText (payload : JsonMap) : Option String := ((payload.lookup "from").getD (.string "")).toText

/-- The stamp a signing call makes of a payload, a clock reading and 12 random bytes. -/
def signedStamp (ts : Int) (random : List UInt8) (payload : JsonMap) : Option Stamp :=
  (senderText payload).map fun sender => ⟨ts, Base64.urlEncode64 random, sender⟩

def sign (hmac : Hmac) (secret : String) (ts : Int) (random : List UInt8) (payload : JsonMap) : Option JsonMap :=
  (signedStamp ts random payload).map fun stamp =>
    payload.insert "spa" (.object
      [("ts", .integer stamp.ts), ("nonce", .string stamp.nonce), ("mac", .string (computeMac hmac secret stamp))])

def readTag (payload : JsonMap) : Except SpaError Tag :=
  match payload.lookup "spa" with
  | none | some .null => .error .missingSpa
  | some (.object entries) =>
    match (Json.toMap entries).lookup "ts", (Json.toMap entries).lookup "nonce", (Json.toMap entries).lookup "mac" with
    | some (.integer ts), some (.string nonce), some (.string mac) => .ok ⟨ts, nonce, mac⟩
    | _, _, _ => .error .malformedSpa
  | some _ => .error .malformedSpa

def withinWindow (now ts : Int) : Bool := (now - ts).natAbs ≤ windowMs

/-- Delete every entry whose expiry is in the past. -/
def prune (now : Int) (nonces : Nonces) : Nonces := nonces.filterValues fun expiry => now ≤ expiry

/-- One-shot nonce: refused while seen and not expired, else recorded until the window of its
timestamp ends. -/
def recordNonce (now : Int) (nonce : String) (ts : Int) (nonces : Nonces) : Verdict × Nonces :=
  let nonces := prune now nonces
  match nonces.lookup nonce with
  | some expiry =>
    if now ≤ expiry then (.error .replayedNonce, nonces) else (.ok, nonces.insert nonce (ts + windowMs))
  | none => (.ok, nonces.insert nonce (ts + windowMs))

/-- Verify a payload's tag. The clock is read once for the window and again for the nonce. -/
def verify (hmac : Hmac) (secret : String) (first second : Int) (payload : JsonMap) (nonces : Nonces) :
    Verdict × Nonces :=
  match readTag payload with
  | .error reason => (.error reason, nonces)
  | .ok tag =>
    match senderText payload with
    | none => (.raised, nonces)
    | some sender =>
      if ¬ withinWindow first tag.ts then (.error .staleTimestamp, nonces)
      else if tag.mac ≠ computeMac hmac secret ⟨tag.ts, tag.nonce, sender⟩ then (.error .badMac, nonces)
      else recordNonce second tag.nonce tag.ts nonces

/-- The tag and sender of a payload, as the stamp its MAC is checked for. -/
def shownStamp (payload : JsonMap) : Option (Stamp × String) :=
  match readTag payload, senderText payload with
  | .ok tag, some sender => some (⟨tag.ts, tag.nonce, sender⟩, tag.mac)
  | _, _ => none

section Verify
variable {hmac : Hmac} {secret : String} {first second : Int} {payload : JsonMap} {nonces after : Nonces}

theorem prune_lookup (now : Int) (nonces : Nonces) (nonce : String) :
    (prune now nonces).lookup nonce = (nonces.lookup nonce).filter fun expiry => decide (now ≤ expiry) :=
  FiniteMap.lookup_filterValues ..

/-- A nonce is recorded when no live entry holds it. -/
theorem recordNonce_cases (now : Int) (nonce : String) (ts : Int) (nonces : Nonces) :
    (recordNonce now nonce ts nonces = (.error .replayedNonce, prune now nonces) ∧
      ∃ expiry, nonces.lookup nonce = some expiry ∧ now ≤ expiry) ∨
    (recordNonce now nonce ts nonces = (.ok, (prune now nonces).insert nonce (ts + windowMs)) ∧
      ∀ expiry, nonces.lookup nonce = some expiry → expiry < now) := by
  unfold recordNonce
  rcases FiniteMap.lookup_filterValues_cases (fun expiry => decide (now ≤ expiry)) nonces nonce with
    ⟨expiry, found, live, kept⟩ | ⟨none, gone⟩
  · have inTime : now ≤ expiry := of_decide_eq_true live
    refine .inl ⟨?_, expiry, found, inTime⟩
    simp only [prune, kept, if_pos inTime]
  · refine .inr ⟨?_, fun expiry found => Int.not_le.mp (of_decide_eq_false (gone expiry found))⟩
    simp only [prune, none]

/-- A verification stops before the nonce table, or its tag is good and in time. -/
theorem verify_cases (hmac : Hmac) (secret : String) (first second : Int) (payload : JsonMap) (nonces : Nonces) :
    ((∃ reason, verify hmac secret first second payload nonces = (.error reason, nonces)) ∧
      ∀ stamp, shownStamp payload = some (stamp, computeMac hmac secret stamp) → withinWindow first stamp.ts = false) ∨
    (verify hmac secret first second payload nonces = (.raised, nonces) ∧ shownStamp payload = none ∧
      ∃ tag, readTag payload = .ok tag ∧ senderText payload = none) ∨
    ∃ stamp, shownStamp payload = some (stamp, computeMac hmac secret stamp) ∧ withinWindow first stamp.ts = true ∧
      verify hmac secret first second payload nonces = recordNonce second stamp.nonce stamp.ts nonces := by
  unfold verify shownStamp
  cases readTag payload with
  | error reason => exact .inl ⟨⟨reason, rfl⟩, fun _ shown => absurd shown (by simp)⟩
  | ok tag =>
    cases senderText payload with
    | none => exact .inr (.inl ⟨rfl, rfl, tag, rfl, rfl⟩)
    | some sender =>
      by_cases inTime : withinWindow first tag.ts = true
      · by_cases good : tag.mac = computeMac hmac secret ⟨tag.ts, tag.nonce, sender⟩
        · exact .inr (.inr ⟨⟨tag.ts, tag.nonce, sender⟩, by rw [← good], inTime, by simp [inTime, good]⟩)
        · refine .inl ⟨⟨.badMac, by simp [inTime, good]⟩, fun stamp shown => ?_⟩
          simp only [Option.some.injEq, Prod.mk.injEq] at shown
          obtain ⟨rfl, same⟩ := shown
          exact absurd same good
      · refine .inl ⟨⟨.staleTimestamp, by simp [inTime]⟩, fun stamp shown => ?_⟩
        simp only [Option.some.injEq, Prod.mk.injEq] at shown
        obtain ⟨rfl, _⟩ := shown
        simpa using inTime

end Verify
end Burble.Bolt

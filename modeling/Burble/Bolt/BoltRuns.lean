import Mathlib
import Burble.Separated
import Burble.Bolt.Spa
import Burble.Runs
import Burble.Bolt.Listener

namespace Burble.Bolt

theorem natText_plain (n : Nat) : ':' ∉ (Nat.repr n).toList := by
  intro member
  have digit := Nat.isDigit_of_mem_toDigits (by omega) (by omega) (Nat.toList_repr ▸ member)
  exact absurd digit (by decide)

theorem intText_plain (n : Int) : ':' ∉ (toString n).toList := by
  cases n with
  | ofNat n => exact natText_plain n
  | negSucc n =>
    have spelt : toString (Int.negSucc n) = "-" ++ Nat.repr (n + 1) := rfl
    rw [spelt, String.toList_append, List.mem_append]
    rintro (sign | digit)
    · exact absurd sign (by decide)
    · exact natText_plain (n + 1) digit

theorem Stamp.text_toList (stamp : Stamp) :
    stamp.text.toList = (toString stamp.ts).toList ++ ':' :: (stamp.nonce.toList ++ ':' :: stamp.sender.toList) := by
  simp [Stamp.text]

/-- A stamp with no colon in its nonce and sender is the only one with its text. -/
theorem Stamp.text_inj {signed shown : Stamp} (nonce : ':' ∉ signed.nonce.toList) (sender : ':' ∉ signed.sender.toList)
    (same : signed.text = shown.text) : signed = shown := by
  have texts := congrArg String.toList same
  rw [text_toList, text_toList] at texts
  obtain ⟨ts, rest⟩ := split_at_first (intText_plain _) (intText_plain _) texts
  obtain ⟨nonces, _, senders⟩ := (List.append_cons_inj_of_notMem nonce sender).mp rest
  have sameTs := Int.repr_injective (String.toList_inj.mp ts)
  have sameNonce := String.toList_inj.mp nonces
  have sameSender := String.toList_inj.mp senders
  obtain ⟨_, _, _⟩ := signed
  exact congr (congr (congrArg Stamp.mk sameTs) sameNonce) sameSender

end Burble.Bolt

namespace Burble.Bolt

/-- The listener's replay table, and what a run has seen: the stamps of the signing calls, the
stamps of the accepted bolts, and the last clock reading. -/
structure World where
  nonces : Nonces
  signed : List Stamp
  accepted : List Stamp
  clock : Int

inductive Event
  | sign (ts : Int) (random : List UInt8) (payload : JsonMap)
  | receive (reads : Reads) (src : String) (data : List UInt8)

def World.init (clock : Int) : World := ⟨∅, [], [], clock⟩

/-- The fields of a packet whose payload is an object. -/
def packetFields (config : Config) (data : List UInt8) : Option JsonMap :=
  match decode config.decodeJson data with
  | .ok packet =>
    match packet.payload with
    | .object entries => some (Json.toMap entries)
    | _ => none
  | .error _ => none

/-- The stamp of a packet whose verification succeeds. -/
def acceptedStamp (config : Config) (secret : String) (reads : Reads) (data : List UInt8) (nonces : Nonces) :
    Option Stamp :=
  (packetFields config data).bind fun fields =>
    if (verify config.hmac secret reads.window reads.record fields nonces).1 = .ok then
      (shownStamp fields).map Prod.fst
    else none

def World.next (config : Config) (secret : String) (w : World) : Event → World
  | .sign ts random payload => { w with signed := w.signed ++ (signedStamp ts random payload).toList }
  | .receive reads src data =>
    { w with
      nonces := (handlePacket config reads src data w.nonces).2,
      accepted := w.accepted ++ (acceptedStamp config secret reads data w.nonces).toList,
      clock := reads.record }

/-- The stamp of a packet whose tag has a good MAC. -/
def carriedStamp (config : Config) (secret : String) (data : List UInt8) : Option Stamp :=
  ((packetFields config data).bind shownStamp).bind fun (stamp, mac) =>
    if mac = computeMac config.hmac secret stamp then some stamp else none

/-- HMAC is unforgeable: a good MAC is over a text that some signing call made, whatever else
the attacker puts into a packet. -/
def Unforged (config : Config) (secret : String) (w : World) (data : List UInt8) : Prop :=
  ∀ stamp ∈ carriedStamp config secret data, ∃ signed ∈ w.signed, signed.text = stamp.text

/-- No MAC is forged, and clock readings do not decrease. -/
def Possible (config : Config) (secret : String) (w : World) : Event → Prop
  | .sign .. => True
  | .receive reads _ data =>
    w.clock ≤ reads.window ∧ reads.window ≤ reads.record ∧ Unforged config secret w data

def Takes (config : Config) (secret : String) (w : World) (event : Event) (after : World) : Prop :=
  Possible config secret w event ∧ w.next config secret event = after

/-- Each signing call's tag authorises one bolt at most, and every accepted bolt carries a
timestamp, a nonce and a sender that were signed together. -/
def World.SingleUse (w : World) : Prop :=
  (w.accepted.map Stamp.text).Nodup ∧ ∀ stamp ∈ w.accepted, stamp ∈ w.signed

/-- A packet the listener raises on before it looks at the nonce: its payload is no object, or
its well-formed tag comes with a sender that has no text. -/
def unreadable (config : Config) (data : List UInt8) : Bool :=
  match decode config.decodeJson data with
  | .ok packet =>
    match packet.payload with
    | .object entries => (readTag (Json.toMap entries)).isOk && (senderText (Json.toMap entries)).isNone
    | _ => true
  | .error _ => false

/-- The name a packet is announced under has a text. -/
def announceable (config : Config) (src : String) (data : List UInt8) : Bool :=
  (packetFields config data).all fun fields => (displayName fields src).toText.isSome

/-- A packet in time does not meet the end of its window between the two clock readings while its
nonce is on record, and can be announced when its nonce is new. -/
def NonceKept (config : Config) (w : World) (reads : Reads) (src : String) (data : List UInt8) (stamp : Stamp) :
    Prop :=
  withinWindow reads.window stamp.ts = true →
    ((w.nonces.lookup stamp.nonce).isSome = true → reads.record ≤ stamp.ts + windowMs) ∧
    ((∀ expiry ∈ w.nonces.lookup stamp.nonce, expiry < reads.record) → announceable config src data = true)

/-- No signed sender has a colon, no nonce on record runs out during a verification of its tag,
and no crash of the listener loses a nonce. -/
def Careful (config : Config) (secret : String) (w : World) : Event → Prop
  | .sign _ _ payload => ∀ sender ∈ senderText payload, ':' ∉ sender.toList
  | .receive reads src data =>
    (unreadable config data = true → w.nonces = ∅) ∧
      ∀ stamp ∈ carriedStamp config secret data, NonceKept config w reads src data stamp

instance (config : Config) (w : World) (reads : Reads) (src : String) (data : List UInt8) (stamp : Stamp) :
    Decidable (NonceKept config w reads src data stamp) :=
  inferInstanceAs (Decidable (_ = true → (_ = true → _ ≤ _) ∧ ((∀ expiry ∈ w.nonces.lookup stamp.nonce, _) → _ = true)))

instance (config : Config) (secret : String) (w : World) (data : List UInt8) :
    Decidable (Unforged config secret w data) :=
  inferInstanceAs (Decidable (∀ stamp ∈ carriedStamp config secret data, ∃ signed ∈ w.signed, signed.text = stamp.text))

instance (config : Config) (secret : String) (w : World) : (event : Event) → Decidable (Possible config secret w event)
  | .sign .. => .isTrue trivial
  | .receive reads _ data =>
    inferInstanceAs (Decidable (w.clock ≤ reads.window ∧ reads.window ≤ reads.record ∧ Unforged config secret w data))

instance (config : Config) (secret : String) (w : World) : (event : Event) → Decidable (Careful config secret w event)
  | .sign _ _ payload => inferInstanceAs (Decidable (∀ sender ∈ senderText payload, ':' ∉ sender.toList))
  | .receive reads src data =>
    inferInstanceAs (Decidable ((unreadable config data = true → w.nonces = ∅) ∧
      ∀ stamp ∈ carriedStamp config secret data, NonceKept config w reads src data stamp))

instance (w : World) : Decidable w.SingleUse :=
  inferInstanceAs (Decidable ((w.accepted.map Stamp.text).Nodup ∧ ∀ stamp ∈ w.accepted, stamp ∈ w.signed))

end Burble.Bolt

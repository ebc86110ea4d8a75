import Burble.E2EE.RoomSystem

namespace Burble.E2EE

/-- A public key as a symbol; on the wire it has its 32 bytes. -/
structure KeySymbol where
  id : Nat
  deriving DecidableEq

/-- A pairwise key as the text it is derived from, with both pairs sorted. -/
structure PairSymbol where
  secrets : Nat × Nat
  peers : String × String
  roomId : String
  epoch : Nat
  deriving DecidableEq

/-- A sealed blob as what it was sealed from. -/
structure BlobSymbol where
  key : Nat
  pair : PairSymbol
  roomId : String
  epoch : Nat
  sender : String
  recipient : String
  deriving DecidableEq

instance : ByteSize KeySymbol := ⟨fun _ => keyBytes⟩

/-- 12 bytes of IV, 16 of tag and the 32 of the key. -/
instance : ByteSize BlobSymbol := ⟨fun _ => 60⟩

def sortSecrets (one other : Nat) : Nat × Nat := if other < one then (other, one) else (one, other)

def sortPeers (one other : String) : String × String :=
  if utf16 other < utf16 one then (other, one) else (one, other)

theorem sortSecrets_comm (one other : Nat) : sortSecrets one other = sortSecrets other one := by
  unfold sortSecrets
  split
  next lower => rw [if_neg (by omega)]
  next upper =>
    split
    next => rfl
    next lower => rw [show one = other by omega]

theorem sortPeers_comm (one other : String) : sortPeers one other = sortPeers other one := by
  unfold sortPeers
  split
  next lower => rw [if_neg (not_lt_of_gt lower)]
  next upper =>
    split
    next => rfl
    next lower => rw [utf16_injective (le_antisymm (not_lt.mp upper) (not_lt.mp lower))]

/-- Private keys are their own public keys' symbols, so anybody's secret is a number. -/
def symbolic : IdealCrypto KeySymbol Nat PairSymbol Nat BlobSymbol where
  publicOf secret := ⟨secret⟩
  pairwiseKey mine theirs roomId epoch me them := ⟨sortSecrets mine theirs.id, sortPeers me them, roomId, epoch⟩
  sealGroupKey key pair roomId epoch sender recipient := ⟨key, pair, roomId, epoch, sender, recipient⟩
  openGroupKey blob pair roomId epoch sender recipient :=
    if blob = ⟨blob.key, pair, roomId, epoch, sender, recipient⟩ then some blob.key else none
  agrees mine theirs roomId epoch me them := by
    rw [sortSecrets_comm, sortPeers_comm]
  opens key pair roomId epoch sender recipient key' pair' roomId' epoch' sender' recipient' := by
    simp only [Option.ite_none_right_eq_some, Option.some.injEq, BlobSymbol.mk.injEq, true_and]
    constructor
    · rintro ⟨⟨rfl, rfl, rfl, rfl, rfl⟩, rfl⟩
      exact ⟨rfl, rfl, rfl, rfl, rfl, rfl⟩
    · rintro ⟨rfl, rfl, rfl, rfl, rfl, rfl⟩
      exact ⟨⟨rfl, rfl, rfl, rfl, rfl⟩, rfl⟩

end Burble.E2EE

import Mathlib.Data.Nat.ModEq
import Mathlib.Data.List.Infix
import Burble.Base16

namespace Burble.Verification

/-- The decimal digits of a number, padded with zeros or cut to a width. -/
def padded : Nat → Nat → List Char
  | 0, _ => []
  | width + 1, value => padded width (value / 10) ++ [Nat.digitChar (value % 10)]

@[simp] theorem padded_length (width value : Nat) : (padded width value).length = width := by
  induction width generalizing value with
  | zero => rfl
  | succ width ih => rw [padded, List.length_append, ih, List.length_singleton]

theorem padded_inj {width value other : Nat} (fits : value < 10 ^ width) (fits' : other < 10 ^ width)
    (same : padded width value = padded width other) : value = other := by
  induction width generalizing value other with
  | zero =>
    rw [Nat.pow_zero] at fits fits'
    omega
  | succ width ih =>
    rw [Nat.pow_succ] at fits fits'
    obtain ⟨front, last⟩ := List.append_inj' same rfl
    have quotients := ih (by omega) (by omega) front
    have digitChars : ∀ one other : Fin 10, Nat.digitChar one = Nat.digitChar other → one = other := by decide
    have digits := digitChars ⟨value % 10, Nat.mod_lt _ (by omega)⟩ ⟨other % 10, Nat.mod_lt _ (by omega)⟩
      (List.cons.inj last).1
    have remainders : value % 10 = other % 10 := congrArg Fin.val digits
    omega

theorem padded_digit {width value : Nat} {char : Char} (member : char ∈ padded width value) :
    char ∈ "0123456789".toList := by
  have digits : ∀ digit : Fin 10, Nat.digitChar digit ∈ "0123456789".toList := by decide
  induction width generalizing value with
  | zero => cases member
  | succ width ih =>
    rcases List.mem_append.mp member with front | last
    · exact ih front
    · rw [List.mem_singleton.mp last]
      exact digits ⟨value % 10, Nat.mod_lt _ (by omega)⟩

/-- A UTC date and time with microseconds, as `DateTime.utc_now` gives it. -/
structure DateTime where
  year : Fin 10000
  month : Fin 13
  day : Fin 32
  hour : Fin 24
  minute : Fin 60
  second : Fin 60
  microsecond : Fin 1000000
  deriving DecidableEq

namespace DateTime

def firstOfMarch : DateTime := ⟨2026, 3, 1, 12, 0, 0, 250⟩

/-- `DateTime.to_iso8601`, such as `2026-03-01T12:00:00.000250Z`. -/
def toIso8601 (t : DateTime) : String :=
  String.ofList (padded 4 t.year ++ '-' :: padded 2 t.month ++ '-' :: padded 2 t.day ++ 'T' :: padded 2 t.hour ++
    ':' :: padded 2 t.minute ++ ':' :: padded 2 t.second ++ '.' :: padded 6 t.microsecond ++ ['Z'])

example : toIso8601 ⟨2026, 3, 1, 12, 0, 0, 250⟩ = "2026-03-01T12:00:00.000250Z" := by decide

theorem toIso8601_injective : Function.Injective toIso8601 := by
  intro one other same
  have chars := String.ofList_inj.mp same
  obtain ⟨chars, -⟩ := List.append_inj' chars rfl
  obtain ⟨chars, microsecond⟩ := List.append_inj' chars (by simp)
  obtain ⟨chars, second⟩ := List.append_inj' chars (by simp)
  obtain ⟨chars, minute⟩ := List.append_inj' chars (by simp)
  obtain ⟨chars, hour⟩ := List.append_inj' chars (by simp)
  obtain ⟨chars, day⟩ := List.append_inj' chars (by simp)
  obtain ⟨year, month⟩ := List.append_inj' chars (by simp)
  have field {width bound : Nat} {value value' : Fin bound} (fits : bound ≤ 10 ^ width)
      (digits : padded width value = padded width value') : value = value' :=
    Fin.ext (padded_inj (by omega) (by omega) digits)
  obtain ⟨y, mo, d, h, mi, s, us⟩ := one
  obtain ⟨y', mo', d', h', mi', s', us'⟩ := other
  rw [DateTime.mk.injEq]
  exact ⟨field (by decide) year, field (by decide) (List.cons.inj month).2, field (by decide) (List.cons.inj day).2,
    field (by decide) (List.cons.inj hour).2, field (by decide) (List.cons.inj minute).2,
    field (by decide) (List.cons.inj second).2, field (by decide) (List.cons.inj microsecond).2⟩

/-- No date and time shows a vertical bar. -/
theorem toIso8601_plain (t : DateTime) : '|' ∉ (toIso8601 t).toList := by
  have digits {width value : Nat} : '|' ∉ padded width value := fun member => absurd (padded_digit member) (by decide)
  simp only [toIso8601, String.toList_ofList, List.mem_append, List.mem_cons, digits, false_or, or_false,
    List.not_mem_nil, not_or]
  decide

end DateTime
end Burble.Verification

namespace Burble.Verification

open Base16 (encode16 decode16)

/-- Erlang's `:crypto` with the server's Ed25519 keypair, which Vext and Avow share. -/
structure ServerCrypto where
  sha256 : String → List UInt8
  sign : String → List UInt8
  verify : String → List UInt8 → Bool

namespace Vext

structure VerificationHeader where
  articleHash : String
  previousHash : String
  chainPosition : Nat
  chainHash : String
  serverSignature : String
  algorithm : String
  timestamp : String
  attestationId : Option String
  deriving DecidableEq

structure ChainState where
  channelId : String
  position : Nat
  latestHash : String
  deriving DecidableEq

inductive VerificationError
  | hashMismatch
  | chainBroken
  | signatureInvalid
  deriving DecidableEq, Repr

/-- Every channel starts from this same root. -/
def genesisHash : String := "0000000000000000000000000000000000000000000000000000000000000000"

def initChain (channelId : String) : ChainState := ⟨channelId, 0, genesisHash⟩

variable (crypto : ServerCrypto)

def hashArticle (body authorId : String) (timestamp : DateTime) : String :=
  encode16 (crypto.sha256 s!"vext:article:{body}|{authorId}|{timestamp.toIso8601}")

def hashChainLink (articleHash previousHash : String) (position : Nat) : String :=
  encode16 (crypto.sha256 s!"vext:chain:{articleHash}|{previousHash}|{position}")

def signChainHash (chainHash : String) : String := encode16 (crypto.sign chainHash)

/-- Whatever raises, as a signature that is no hex does, is no valid signature. -/
def verifySignature (chainHash signature : String) : Bool :=
  match decode16 signature with
  | some bytes => crypto.verify chainHash bytes
  | none => false

/-- A header for a new article, and the chain with it. -/
def createHeader (body authorId : String) (timestamp : DateTime) (chainState : ChainState)
    (attestationId : Option String) : VerificationHeader × ChainState :=
  let articleHash := hashArticle crypto body authorId timestamp
  let previousHash := chainState.latestHash
  let position := chainState.position + 1
  let chainHash := hashChainLink crypto articleHash previousHash position
  ({ articleHash, previousHash, chainPosition := position, chainHash,
     serverSignature := signChainHash crypto chainHash, algorithm := "sha256+ed25519",
     timestamp := timestamp.toIso8601, attestationId },
   { chainState with position, latestHash := chainHash })

def verifyArticle (body authorId : String) (timestamp : DateTime) (header : VerificationHeader)
    (expectedPreviousHash : String) : Except VerificationError Unit :=
  let computedHash := hashArticle crypto body authorId timestamp
  if computedHash ≠ header.articleHash then .error .hashMismatch
  else if header.previousHash ≠ expectedPreviousHash then .error .chainBroken
  else
    let computedChain := hashChainLink crypto computedHash expectedPreviousHash header.chainPosition
    if computedChain ≠ header.chainHash then .error .chainBroken
    else if verifySignature crypto header.chainHash header.serverSignature then .ok ()
    else .error .signatureInvalid

/-- An article as it is shown to the verifier. -/
structure FeedArticle where
  body : String
  authorId : String
  timestamp : DateTime
  header : VerificationHeader
  deriving DecidableEq

/-- The reduction of `verify_feed`, from the hash before an article and the number of those
before it: how many were verified, or the errors, of which the first stops it. -/
def verifyFrom (previousHash : String) (position : Nat) : List FeedArticle → Except (List (Nat × VerificationError)) Nat
  | [] => .ok position
  | article :: rest =>
    match verifyArticle crypto article.body article.authorId article.timestamp article.header previousHash with
    | .ok () => verifyFrom article.header.chainHash (position + 1) rest
    | .error reason => .error [(position + 1, reason)]

def verifyFeed (articles : List FeedArticle) : Except (List (Nat × VerificationError)) Nat :=
  verifyFrom crypto genesisHash 0 articles

end Vext
end Burble.Verification

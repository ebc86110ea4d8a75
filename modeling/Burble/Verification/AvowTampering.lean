import Burble.Verification.AvowChains
import Burble.Verification.VextSoundness

namespace Burble.Verification.Avow

open Base16 (encode16)
open Vext (ChannelRun Signed)

/-- Only what the server has signed passes for signed: the chain hashes of its Vext runs and
the proof hashes of what it has issued. No two texts have one digest. -/
structure Ideal (host : Host) (runs : List ChannelRun) (issued : List Attestation) : Prop where
  injective : Function.Injective host.sha256
  unforgeable : ∀ message signature, host.verify message signature = true →
    Signed host.toServerCrypto runs (issued.map fun attestation => attestation.text host) message

/-- The attestation is one the server has issued, in what that covers and in its proof hash, with
a good signature. Its id and the one it names as previous are whatever they are. -/
def Reissued (host : Host) (issued : List Attestation) (attestation : Attestation) : Prop :=
  ∃ original ∈ issued, attestation.text host = original.text host ∧ attestation.proofHash = original.proofHash ∧
    verifySignature host attestation.proofHash attestation.signature = true

/-- Each is issued by the server but for id and previous, and names the id before it. -/
structure Relinked (host : Host) (issued shown : List Attestation) : Prop where
  reissued : ∀ attestation ∈ shown, Reissued host issued attestation
  linked : shown.IsChain Follows

variable {host : Host} {runs : List ChannelRun} {issued shown : List Attestation}

theorem hashText_injective (injective : Function.Injective host.sha256) {one other : String}
    (same : hashText host one = hashText host other) : one = other := by
  have texts := injective (Base16.encode16_injective same)
  simpa [toString, String.append_right_inj] using texts

/-- A chain hash of Vext is no proof hash. -/
theorem signed_proofHash (ideal : Ideal host runs issued) {text signature : String}
    (good : verifySignature host (hashText host text) signature = true) :
    ∃ original ∈ issued, text = original.text host := by
  rw [verifySignature, Vext.verifySignature] at good
  cases decoded : Base16.decode16 signature with
  | none => simp [decoded] at good
  | some bytes =>
    rw [decoded] at good
    rcases ideal.unforgeable _ _ good with ⟨run, _, header, member, same⟩ | ⟨covered, member, same⟩
    · obtain ⟨digest, listed, equal⟩ := Vext.chainHash_link member
      obtain ⟨article, previous, position, rfl⟩ := HashChain.link_of_member listed
      exact absurd (same.trans equal).symm (Vext.chainLink_ne_avow ideal.injective article text previous position)
    · obtain ⟨original, among, rfl⟩ := List.mem_map.mp member
      exact ⟨original, among, hashText_injective ideal.injective same⟩

theorem genuine_iff_reissued (ideal : Ideal host runs issued)
    (built : ∀ attestation ∈ issued, attestation.Built host) {attestation : Attestation} :
    attestation.Genuine host ↔ Reissued host issued attestation := by
  constructor
  · rintro ⟨digest, good⟩
    have signed := good
    rw [← digest, computeProofHash] at signed
    obtain ⟨original, among, same⟩ := signed_proofHash ideal signed
    refine ⟨original, among, same, ?_, good⟩
    rw [(built original among).proofHash, ← digest, computeProofHash, computeProofHash, same]
  · rintro ⟨original, among, same, digest, good⟩
    refine ⟨?_, good⟩
    rw [digest, (built original among).proofHash, computeProofHash, computeProofHash, same]

theorem accepted_iff_relinked (ideal : Ideal host runs issued)
    (built : ∀ attestation ∈ issued, attestation.Built host) :
    (∃ last, verifyChain host shown = .ok last) ↔ Relinked host issued shown := by
  rw [verifyChain_accepts]
  constructor
  · rintro ⟨genuine, linked⟩
    exact ⟨fun attestation member => (genuine_iff_reissued ideal built).mp (genuine attestation member), linked⟩
  · rintro ⟨reissued, linked⟩
    exact ⟨fun attestation member => (genuine_iff_reissued ideal built).mpr (reissued attestation member), linked⟩

/-- Whatever is cut off at the front of an accepted chain, the rest is accepted. -/
theorem verifyChain_drop (accepted : ∃ last, verifyChain host shown = .ok last) (count : Nat) :
    ∃ last, verifyChain host (shown.drop count) = .ok last := by
  obtain ⟨genuine, linked⟩ := verifyChain_accepts.mp accepted
  exact verifyChain_accepts.mpr ⟨fun attestation member => genuine attestation (List.mem_of_mem_drop member), linked.drop _⟩

def annsJoin : Attestation := annJoins.build plainHost [1] noonUtc none

def annsLeave : Attestation := annLeaves.build plainHost [2] noonUtc annsJoin.id

/-- Only what is known is ever signed. -/
def sealedHost (known : List Attestation) : Host :=
  { plainHost with
    verify := fun message signature =>
      decide (signature = utf8 message ∧ message ∈ known.map Attestation.proofHash) }

variable {known : List Attestation}

theorem build_sealedHost (request : Request) (random : List UInt8) (timestamp : DateTime) (previous : Option String) :
    request.build (sealedHost known) random timestamp previous = request.build plainHost random timestamp previous := by
  have same (subjectId action consentState grantedBy metadata) :
      buildAttestation (sealedHost known) random timestamp subjectId action consentState grantedBy previous metadata =
        buildAttestation plainHost random timestamp subjectId action consentState grantedBy previous metadata := by
    simp only [buildAttestation, hashText, signAttestation, coveredText, sealedHost]
  cases request with
  | attestJoin => exact same ..
  | attestLeave => exact same ..

theorem sealedHost_ideal (built : ∀ attestation ∈ known, attestation.Built plainHost) :
    Ideal (sealedHost known) [] known := by
  refine ⟨utf8_injective, fun message signature good => .inr ?_⟩
  obtain ⟨-, member⟩ := of_decide_eq_true good
  obtain ⟨attestation, among, rfl⟩ := List.mem_map.mp member
  refine ⟨attestation.text plainHost, ?_, (built attestation among).proofHash⟩
  exact List.mem_map.mpr ⟨attestation, among, rfl⟩

theorem sealedHost_genuine (built : ∀ attestation ∈ known, attestation.Built plainHost) {attestation : Attestation}
    (member : attestation ∈ known) : attestation.Genuine (sealedHost known) := by
  obtain ⟨digest, signature⟩ := built attestation member
  refine ⟨digest.symm, ?_⟩
  rw [signature, verifySignature, signAttestation, Vext.verifySignature, Base16.decode16_encode16]
  exact decide_eq_true ⟨rfl, List.mem_map_of_mem member⟩

def annsChain : List Attestation := [annsJoin, annsLeave]

theorem annsChain_built : ∀ attestation ∈ annsChain, attestation.Built plainHost := by
  intro attestation member
  rcases List.mem_pair.mp member with rfl | rfl
  · exact annJoins.built _ _ _
  · exact annLeaves.built _ _ _

/-- Ann joins the lobby and leaves it. -/
theorem annsChain_run : ∃ labels last, AvowRun (sealedHost annsChain) .start labels last ∧
    last.issued = annsChain ∧ last.chain annLeaves.key = annsChain := by
  obtain ⟨joined, middle, first, issued, chain, calls⟩ :=
    serve (sealedHost annsChain) .start 0 annJoins [1] noonUtc rfl
  have free : middle.calls.lookup 1 = none := by
    rw [calls, AList.lookup_insert_ne (by decide)]
    rfl
  obtain ⟨left, last, second, issued', chain', -⟩ := serve (sealedHost annsChain) middle 1 annLeaves [2] noonUtc free
  rw [build_sealedHost] at issued chain issued' chain'
  have joins : middle.chain annLeaves.key = [annsJoin] := chain
  rw [joins] at issued' chain'
  refine ⟨_, last, (first.append second).mono fun taken => taken.2, ?_, chain'⟩
  rw [issued', issued]
  rfl

/-- A list is rejected unless it is a prefix of the chain, exactly when that is so or it is not
made of issued attestations, each with whatever id and naming the id before it. -/
theorem rejected_unless_prefix_iff {labels : List AvowLabel} {last : AvowState}
    (run : AvowRun host .start labels last) (ideal : Ideal host runs last.issued) (key : ChainKey)
    (shown : List Attestation) :
    (¬ shown <+: last.chain key → ¬ ∃ result, verifyChain host shown = .ok result) ↔
      shown <+: last.chain key ∨ ¬ Relinked host last.issued shown := by
  have issued : Issued host last := run.invariant .start Issued.step
  rw [accepted_iff_relinked ideal issued.built]
  exact or_iff_not_imp_left.symm

theorem annsChain_accepted : ∃ result, verifyChain (sealedHost annsChain) annsChain = .ok result :=
  verifyChain_accepts.mpr ⟨fun _ member => sealedHost_genuine annsChain_built member,
    List.isChain_pair.mpr fun _ => rfl⟩

theorem annsLeave_no_prefix : ¬ [annsLeave] <+: annsChain := by
  intro same
  have actions := congrArg Attestation.action (List.cons_prefix_cons.mp same).1
  exact absurd actions (by decide)

/-- The join is taken away, and nobody notices. -/
theorem join_deleted_unnoticed : ∃ labels last, AvowRun (sealedHost annsChain) .start labels last ∧
    Ideal (sealedHost annsChain) [] last.issued ∧
    ¬ (¬ [annsLeave] <+: last.chain annLeaves.key →
      ¬ ∃ result, verifyChain (sealedHost annsChain) [annsLeave] = .ok result) := by
  obtain ⟨labels, last, run, issued, chain⟩ := annsChain_run
  refine ⟨labels, last, run, by rw [issued]; exact sealedHost_ideal annsChain_built, fun rejects => ?_⟩
  rw [chain] at rejects
  exact rejects annsLeave_no_prefix (verifyChain_drop annsChain_accepted 1)

theorem leave_alone_relinked : ∃ labels last, AvowRun (sealedHost annsChain) .start labels last ∧
    ((¬ [annsLeave] <+: last.chain annLeaves.key →
      ¬ ∃ result, verifyChain (sealedHost annsChain) [annsLeave] = .ok result) ↔
      [annsLeave] <+: last.chain annLeaves.key ∨ ¬ Relinked (sealedHost annsChain) last.issued [annsLeave]) := by
  obtain ⟨labels, last, run, issued, _⟩ := annsChain_run
  have ideal : Ideal (sealedHost annsChain) [] last.issued := by
    rw [issued]
    exact sealedHost_ideal annsChain_built
  exact ⟨labels, last, run, rejected_unless_prefix_iff run ideal annLeaves.key [annsLeave]⟩

end Burble.Verification.Avow

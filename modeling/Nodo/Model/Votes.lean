import Nodo.Model.Validators

/-!
# Nodo — validator votes

`consensus/ValidatorVoteRecord.cpp`: the signed vote of one validator in one
round and its checks. A timeout is voted with the decision `reject` on the
block hash `"nil"`.
-/

namespace Nodo.Model

namespace ValidatorVoteRecord

/-- `matchesBlock(blockIndex, blockHash, round)`: the previous hash is not part
of it. -/
def matchesBlock (vote : ValidatorVoteRecord) (blockIndex : Nat) (blockHash : String)
    (round : Nat) : Bool :=
  vote.blockIndex == blockIndex && vote.blockHash == blockHash && vote.round == round

def isStructurallyValid (crypto : CryptoContext) (vote : ValidatorVoteRecord) : Bool :=
  isSafeScalar vote.validatorAddress && isSafeScalar vote.blockHash
    && isSafeScalar vote.previousHash && isSafeScalar vote.reasonHash
    && crypto.publicKeyIsValid vote.validatorPublicKey
    && crypto.verifyAddressForPublicKey vote.validatorAddress vote.validatorPublicKey
    && vote.blockIndex != 0 && vote.round != 0 && 0 < vote.createdAt
    && vote.decision != .unknown
    && !vote.signatureBundle.isEmpty
    && crypto.bundleIsValidForPolicy vote.signatureBundle

/-- `verify(policy, provider)`. -/
def verify (crypto : CryptoContext) (vote : ValidatorVoteRecord) : Bool :=
  vote.isStructurallyValid crypto
    && crypto.bundleVerifyForPolicy vote.toVoteSigningPayload vote.signatureBundle

/-- `deterministicId`: the key under which pools and evidence know a vote. -/
def deterministicId (crypto : CryptoContext) (vote : ValidatorVoteRecord) : String :=
  crypto.voteRecordId vote

theorem matchesBlock_iff {vote : ValidatorVoteRecord} {blockIndex round : Nat}
    {blockHash : String} :
    vote.matchesBlock blockIndex blockHash round = true ↔
      vote.blockIndex = blockIndex ∧ vote.blockHash = blockHash ∧ vote.round = round := by
  simp [matchesBlock, and_assoc]

/-- The part of the structural checks that a certificate target inherits. -/
theorem verify_structural {crypto : CryptoContext} {vote : ValidatorVoteRecord}
    (h : vote.verify crypto = true) :
    isSafeScalar vote.blockHash = true ∧ isSafeScalar vote.previousHash = true ∧
      vote.blockIndex ≠ 0 ∧ vote.round ≠ 0 := by
  simp only [verify, isStructurallyValid, Bool.and_eq_true, bne_iff_ne] at h
  tauto

end ValidatorVoteRecord

end Nodo.Model

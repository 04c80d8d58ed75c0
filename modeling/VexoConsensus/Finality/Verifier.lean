import VexoConsensus.Lib.Checks
import VexoConsensus.Validator

namespace Vexo.Finality

open ByteCodec Checks List

section

structure QuorumCert where
  height : Height
  round : Round
  blockHash : Hash
  signers : Bitmap
  signature : AggregateSignature
  votingPower : VotingPower
deriving DecidableEq

structure TimeoutCert where
  height : Height
  round : Round
  highQC : QuorumCert
  signers : Bitmap
  signature : AggregateSignature
deriving DecidableEq

structure CommitLink where
  header : Header
  blockHash : Hash
  quorumCert : QuorumCert
deriving DecidableEq

structure Proof where
  header : Header
  blockHash : Hash
  quorumCert : QuorumCert
  commitChain : List CommitLink
  validatorSetHeight : Height
  validatorSetHash : Hash
deriving DecidableEq

def zeroQC : QuorumCert := ⟨0, 0, zeroHash, [], [], 0⟩

variable (proof : Proof)

def Proof.headerHash : Hash := hashHeader proof.header

def CommitLink.headerHash (link : CommitLink) : Hash := hashHeader link.header

def Proof.signBytes : Bytes :=
  let blockHash := if proof.blockHash = zeroHash then proof.quorumCert.blockHash else proof.blockHash
  let blockHash := if blockHash = zeroHash then proof.headerHash else blockHash
  Signbytes.vote proof.quorumCert.height proof.quorumCert.round blockHash

def Proof.hasThreeChainCommitProof : Bool := proof.commitChain.length ≥ 2

def CommitLink.signBytes (link : CommitLink) : Bytes :=
  let blockHash := if link.quorumCert.blockHash = zeroHash then link.blockHash else link.quorumCert.blockHash
  Signbytes.vote link.quorumCert.height link.quorumCert.round blockHash

def comma : UInt8 := 44

variable (signers : List ValidatorID)

def encodeSigners : Bitmap := [comma].intercalate signers

def parseSigners (signers : Bitmap) : Except Err (List ValidatorID) :=
  if signers = [] then .ok []
  else
    let parts := signers.splitOn comma
    if [] ∈ parts then .error .emptySigner else .ok parts

def newProof (header : Header) (quorumCert : QuorumCert) : Proof where
  header := header
  blockHash := if quorumCert.blockHash = zeroHash then hashHeader header else quorumCert.blockHash
  quorumCert := quorumCert
  commitChain := []
  validatorSetHeight := header.height
  validatorSetHash := header.validatorSetHash

theorem encode_signers_empty {signers : List ValidatorID} (filled : ∀ signer ∈ signers, signer ≠ [])
    (empty : encodeSigners signers = []) : signers = [] := by
  cases signers with
  | nil => rfl
  | cons head tail =>
    have headFilled := filled head (by simp)
    cases tail with
    | nil => simp [encodeSigners, headFilled] at empty
    | cons next rest => simp [encodeSigners, List.intercalate, headFilled] at empty

-- The separator is not escaped, so the round trip needs identifiers that are neither empty nor contain it.
theorem parse_encode_signers (filled : ∀ signer ∈ signers, signer ≠ [])
    (plain : ∀ signer ∈ signers, comma ∉ signer) : parseSigners (encodeSigners signers) = .ok signers := by
  by_cases empty : encodeSigners signers = []
  · have none := encode_signers_empty filled empty
    subst none
    rfl
  · have nonempty : signers ≠ [] := by
      rintro rfl
      exact empty rfl
    have parts : (encodeSigners signers).splitOn comma = signers := List.splitOn_intercalate comma plain nonempty
    have noEmpty : [] ∉ signers := fun member => filled [] member rfl
    simp only [parseSigners, if_neg empty, parts, if_neg noEmpty]

end

structure SignatureVerifier where
  verifyAggregate : List PublicKey → ByteCodec.Bytes → AggregateSignature → Bool

structure Verifier where
  validatorSet : SetSnapshot
  signatures : Option SignatureVerifier
  requireCommitChain : Bool

-- validator.Registry as the verifier uses it: the set in force at a height, or an error.
abbrev Registry := Height → Except Err SetSnapshot

structure RegistryVerifier where
  registry : Option Registry
  signatures : Option SignatureVerifier
  requireCommitChain : Bool

def domainAggregateVerifier (inner : SignatureVerifier) (domain : GoString) : SignatureVerifier where
  verifyAggregate publicKeys message signature :=
    match Crypto.domainMessage domain message with
    | .ok domainMessage => inner.verifyAggregate publicKeys domainMessage signature
    | .error _ => false

def newVerifier (validatorSet : SetSnapshot) (signatures : Option SignatureVerifier) (requireCommitChain : Bool) : Verifier where
  validatorSet := validatorSet
  signatures := signatures.map fun inner => domainAggregateVerifier inner Crypto.domainConsensusVote
  requireCommitChain := requireCommitChain

def hasQuorum (power total : VotingPower) : Bool := hasTwoThirdsQuorum power total

-- The signer loop of verifyQuorumCert: seen, votingPower and publicKeys are its loop variables.
def tallySigners (set : SetSnapshot) : List ValidatorID → List ValidatorID → VotingPower → List PublicKey → Except Err (VotingPower × List PublicKey)
  | [], _, votingPower, publicKeys => .ok (votingPower, publicKeys)
  | signer :: rest, seen, votingPower, publicKeys => do
      require (signer ∉ seen) .duplicateSigner
      match set.get signer with
      | none => .error .unknownSigner
      | some validator => do
          let votingPower ← addVotingPower votingPower validator.votingPower
          tallySigners set rest (signer :: seen) votingPower (publicKeys ++ [validator.publicKey])

def Verifier.signaturesAccept (verifier : Verifier) (publicKeys : List PublicKey) (signBytes : ByteCodec.Bytes)
    (signature : AggregateSignature) : Bool :=
  match verifier.signatures with
  | none => true
  | some signatures => signatures.verifyAggregate publicKeys signBytes signature

def Verifier.verifyQuorumCert (verifier : Verifier) (ctx : Context) (cert : QuorumCert) (height : Height)
    (blockHash : Hash) (signBytes : ByteCodec.Bytes) : Except Err Unit := do
  require (ctx.done = false) .contextDone
  require (cert.height = height) .heightMismatch
  require (cert.blockHash = blockHash) .blockHashMismatch
  require (cert.signature ≠ []) .missingQCSignature
  let signers ← parseSigners cert.signers
  let (votingPower, publicKeys) ← tallySigners verifier.validatorSet signers [] 0 []
  require (hasQuorum votingPower verifier.validatorSet.totalVotingPower) .insufficientQuorum
  require (cert.votingPower = 0 ∨ cert.votingPower = votingPower) .votingPowerMismatch
  require (verifier.signaturesAccept publicKeys signBytes cert.signature) .missingQCSignature

-- The link loop of verifyCommitChain: index, previousHeader and previousHash are its loop variables.
def Verifier.verifyCommitLinks (verifier : Verifier) (ctx : Context) (proof : Proof) : Nat → Header → Hash → List CommitLink → Except Err Unit
  | _, _, _, [] => .ok ()
  | index, previousHeader, previousHash, link :: rest => do
      require (link.blockHash ≠ zeroHash) .commitChainBroken
      require (link.blockHash = link.headerHash) .blockHashMismatch
      require (link.header.chainID = proof.header.chainID) .commitChainBroken
      require (link.header.validatorSetHash = proof.header.validatorSetHash) .validatorSetMismatch
      require (link.header.height = previousHeader.height + 1) .commitChainBroken
      require (link.header.previousBlockHash = previousHash) .commitChainBroken
      require (link.quorumCert.height = previousHeader.height) .heightMismatch
      require (link.quorumCert.blockHash = previousHash) .blockHashMismatch
      if index < 2 then
        verifier.verifyQuorumCert ctx link.quorumCert previousHeader.height previousHash link.signBytes
      verifier.verifyCommitLinks ctx proof (index + 1) link.header link.blockHash rest

def Proof.rootHash (proof : Proof) : Hash := if proof.blockHash = zeroHash then proof.headerHash else proof.blockHash

def Verifier.verifyCommitChain (verifier : Verifier) (ctx : Context) (proof : Proof) : Except Err Unit :=
  if proof.commitChain = [] then require (verifier.requireCommitChain = false) .commitChainTooShort
  else do
    require (proof.hasThreeChainCommitProof) .commitChainTooShort
    verifier.verifyCommitLinks ctx proof 0 proof.header proof.rootHash proof.commitChain

def Verifier.verifyFinalityProofWithContext (verifier : Verifier) (ctx : Context) (proof : Proof) : Except Err Unit := do
  require (ctx.done = false) .contextDone
  let validatorSetHash := verifier.validatorSet.hash
  require (proof.validatorSetHash = validatorSetHash ∧ proof.header.validatorSetHash = validatorSetHash) .validatorSetMismatch
  require (proof.validatorSetHeight ≠ 0 ∧ proof.validatorSetHeight ≤ proof.header.height) .heightMismatch
  verifier.verifyQuorumCert ctx proof.quorumCert proof.header.height proof.rootHash proof.signBytes
  verifier.verifyCommitChain ctx proof

def Verifier.verifyFinalityProof (verifier : Verifier) (proof : Proof) : Except Err Unit :=
  verifier.verifyFinalityProofWithContext Context.background proof

variable (verifier : RegistryVerifier)

def RegistryVerifier.verifyFinalityProofWithContext (ctx : Context) (proof : Proof) : Except Err Unit := do
  require (ctx.done = false) .contextDone
  match verifier.registry with
  | none => .error .validatorSetMismatch
  | some registry => do
      let validatorSetHeight := if proof.validatorSetHeight = 0 then proof.header.height else proof.validatorSetHeight
      let validatorSet ← registry validatorSetHeight
      (newVerifier validatorSet verifier.signatures verifier.requireCommitChain).verifyFinalityProofWithContext ctx proof

def RegistryVerifier.verifyFinalityProof (proof : Proof) : Except Err Unit :=
  verifier.verifyFinalityProofWithContext Context.background proof

def keysOf (set : SetSnapshot) (signers : List ValidatorID) : List PublicKey :=
  signers.filterMap fun signer => (set.get signer).map Validator.publicKey

structure QuorumBacked (verifier : Verifier) (cert : QuorumCert) (signBytes : ByteCodec.Bytes) (signers : List ValidatorID) : Prop where
  parsed : parseSigners cert.signers = .ok signers
  distinct : signers.Nodup
  known : ∀ signer ∈ signers, ∃ validator, verifier.validatorSet.get signer = some validator
  quorum : 0 < verifier.validatorSet.totalVotingPower.toNat ∧
    2 * verifier.validatorSet.totalVotingPower.toNat ≤ 3 * (signers.map verifier.validatorSet.powerOf).sum
  signed : verifier.signaturesAccept (keysOf verifier.validatorSet signers) signBytes cert.signature = true

variable (set : SetSnapshot)

theorem tally_signers_ok (signers seen : List ValidatorID) (power : VotingPower) (keys : List PublicKey) (result : VotingPower × List PublicKey)
    (tallied : tallySigners set signers seen power keys = .ok result) :
    signers.Nodup ∧ (∀ signer ∈ signers, signer ∉ seen ∧ ∃ validator, set.get signer = some validator) ∧
      result.1.toNat = power.toNat + (signers.map set.powerOf).sum ∧ result.2 = keys ++ keysOf set signers := by
  induction signers generalizing seen power keys with
  | nil =>
    cases tallied
    simp [keysOf]
  | cons signer rest ih =>
    simp only [tallySigners, ok_iff] at tallied
    obtain ⟨fresh, tallied⟩ := tallied
    split at tallied
    · cases tallied
    · next validator found =>
      simp only [bind_ok_iff] at tallied
      obtain ⟨sum, added, tallied⟩ := tallied
      obtain ⟨distinct, known, power', keys'⟩ := ih _ _ _ tallied
      have notLater : signer ∉ rest := fun later => (known signer later).1 mem_cons_self
      refine ⟨nodup_cons.mpr ⟨notLater, distinct⟩, ?_, ?_, ?_⟩
      · intro member listed
        rcases mem_cons.mp listed with rfl | later
        · exact ⟨fresh, validator, found⟩
        · exact ⟨fun earlier => (known member later).1 (mem_cons_of_mem _ earlier), (known member later).2⟩
      · rw [power', add_voting_power_ok added, map_cons, sum_cons, power_of_get found]
        omega
      · simp [keys', keysOf, found]

theorem tally_signers_of (signers seen : List ValidatorID) (power : VotingPower) (keys : List PublicKey)
    (distinct : signers.Nodup) (known : ∀ signer ∈ signers, signer ∉ seen ∧ ∃ validator, set.get signer = some validator)
    (fits : power.toNat + (signers.map set.powerOf).sum < 2 ^ 64) :
    ∃ total, tallySigners set signers seen power keys = .ok (total, keys ++ keysOf set signers) := by
  induction signers generalizing seen power keys with
  | nil => exact ⟨power, by simp [tallySigners, keysOf]⟩
  | cons signer rest ih =>
    obtain ⟨fresh, validator, found⟩ := known signer mem_cons_self
    obtain ⟨notLater, restDistinct⟩ := nodup_cons.mp distinct
    rw [map_cons, sum_cons, power_of_get found] at fits
    have added := add_voting_power_fits (show power.toNat + validator.votingPower.toNat < 2 ^ 64 by omega)
    have restKnown : ∀ other ∈ rest, other ∉ signer :: seen ∧ ∃ validator, set.get other = some validator := by
      intro other later
      obtain ⟨otherFresh, otherFound⟩ := known other (mem_cons_of_mem _ later)
      refine ⟨fun earlier => ?_, otherFound⟩
      rcases mem_cons.mp earlier with rfl | before
      · exact notLater later
      · exact otherFresh before
    obtain ⟨total, tallied⟩ := ih (signer :: seen) (power + validator.votingPower) (keys ++ [validator.publicKey]) restDistinct
      restKnown (by rw [add_voting_power_ok added]; omega)
    refine ⟨total, ?_⟩
    simp only [tallySigners, found, ok_iff]
    refine ⟨fresh, _, added, ?_⟩
    rw [tallied]
    simp [keysOf, found]

variable {verifier : Verifier} {ctx : Context} {proof : Proof} {cert : QuorumCert} {ctx' : Context} {signBytes : ByteCodec.Bytes}

theorem verify_quorum_cert_ok {height : Height} {blockHash : Hash}
    (accepted : verifier.verifyQuorumCert ctx cert height blockHash signBytes = .ok ()) :
    cert.height = height ∧ cert.blockHash = blockHash ∧ ∃ signers, QuorumBacked verifier cert signBytes signers := by
  simp only [Verifier.verifyQuorumCert, ok_iff] at accepted
  obtain ⟨-, heights, hashes, -, signers, parsed, ⟨power, keys⟩, tallied, quorum, -, signed⟩ := accepted
  obtain ⟨distinct, known, powers, keysEq⟩ := tally_signers_ok _ _ _ _ _ _ tallied
  simp only [UInt64.toNat_zero, Nat.zero_add] at powers
  simp only [nil_append] at keysEq
  have reached := (has_quorum_iff _ _).mp quorum
  rw [powers] at reached
  exact ⟨heights, hashes, signers, parsed, distinct, fun signer listed => (known signer listed).2, reached, keysEq ▸ signed⟩

theorem verify_quorum_cert_of {signers : List ValidatorID} (signature : cert.signature ≠ []) (backed : QuorumBacked verifier cert signBytes signers)
    (power : cert.votingPower.toNat = (signers.map verifier.validatorSet.powerOf).sum) :
    verifier.verifyQuorumCert .background cert cert.height cert.blockHash signBytes = .ok () := by
  have fits := cert.votingPower.toNat_lt
  obtain ⟨total, tallied⟩ := tally_signers_of verifier.validatorSet signers [] 0 [] backed.distinct
    (fun signer listed => ⟨not_mem_nil, backed.known signer listed⟩) (by simpa [← power] using fits)
  have totalPower := (tally_signers_ok _ _ _ _ _ _ tallied).2.2.1
  simp only [UInt64.toNat_zero, Nat.zero_add] at totalPower
  simp only [Verifier.verifyQuorumCert, ok_iff]
  refine ⟨rfl, trivial, trivial, signature, signers, backed.parsed, _, tallied, ?_, ?_, backed.signed⟩
  · exact (has_quorum_iff _ _).mpr (totalPower ▸ backed.quorum)
  · exact .inr (UInt64.toNat_inj.mp (power.trans totalPower.symm))

def LinksBound : Hash → List CommitLink → Prop
  | _, [] => True
  | previousHash, link :: rest =>
    link.quorumCert.blockHash = previousHash ∧ link.header.previousBlockHash = previousHash ∧
      link.blockHash = link.headerHash ∧ LinksBound link.headerHash rest

theorem verify_commit_links_bound (verifier : Verifier) (ctx : Context) (proof : Proof) (index : Nat)
    (previousHeader : Header) (previousHash : Hash) (links : List CommitLink)
    (accepted : verifier.verifyCommitLinks ctx proof index previousHeader previousHash links = .ok ()) :
    LinksBound previousHash links := by
  induction links generalizing index previousHeader previousHash with
  | nil => trivial
  | cons link rest ih =>
    simp only [Verifier.verifyCommitLinks, ok_iff] at accepted
    obtain ⟨-, own, -, -, -, parent, -, certified, accepted⟩ := accepted
    have later : LinksBound link.blockHash rest := by
      split at accepted
      · simp only [bind_ok_iff] at accepted
        obtain ⟨-, -, accepted⟩ := accepted
        exact ih _ _ _ accepted
      · exact ih _ _ _ accepted
    exact ⟨certified, parent, own, own ▸ later⟩

theorem verify_commit_chain_bound (accepted : verifier.verifyCommitChain ctx proof = .ok ()) : LinksBound proof.rootHash proof.commitChain := by
  unfold Verifier.verifyCommitChain at accepted
  split at accepted
  · rename_i empty
    rw [empty]
    trivial
  · simp only [ok_iff] at accepted
    exact verify_commit_links_bound _ _ _ _ _ _ _ accepted.2

structure ProofChecked (verifier : Verifier) (proof : Proof) : Prop where
  setHash : proof.validatorSetHash = verifier.validatorSet.hash
  headerSetHash : proof.header.validatorSetHash = verifier.validatorSet.hash
  setHeight : proof.validatorSetHeight ≠ 0
  certHeight : proof.quorumCert.height = proof.header.height
  certHash : proof.quorumCert.blockHash = proof.rootHash
  backed : ∃ signers, QuorumBacked verifier proof.quorumCert proof.signBytes signers
  links : LinksBound proof.rootHash proof.commitChain

theorem verify_finality_proof_ok (accepted : verifier.verifyFinalityProofWithContext ctx proof = .ok ()) : ProofChecked verifier proof := by
  simp only [Verifier.verifyFinalityProofWithContext, ok_iff] at accepted
  obtain ⟨-, ⟨setHash, headerSetHash⟩, ⟨setHeight, -⟩, _, certified, chained⟩ := accepted
  obtain ⟨certHeight, certHash, backed⟩ := verify_quorum_cert_ok certified
  exact ⟨setHash, headerSetHash, setHeight, certHeight, certHash, backed, verify_commit_chain_bound chained⟩

theorem registry_verify_ok {verifier : RegistryVerifier} (accepted : verifier.verifyFinalityProofWithContext ctx proof = .ok ()) :
    ∃ registry set, verifier.registry = some registry ∧ registry proof.validatorSetHeight = .ok set ∧
      ProofChecked (newVerifier set verifier.signatures verifier.requireCommitChain) proof := by
  simp only [RegistryVerifier.verifyFinalityProofWithContext, ok_iff] at accepted
  obtain ⟨-, accepted⟩ := accepted
  split at accepted
  · cases accepted
  · next registry given =>
    simp only [bind_ok_iff] at accepted
    obtain ⟨set, loaded, accepted⟩ := accepted
    have checked := verify_finality_proof_ok accepted
    rw [if_neg checked.setHeight] at loaded
    exact ⟨registry, set, given, loaded, checked⟩

theorem verify_quorum_cert_live (signatures : Option SignatureVerifier) (strict strict' : Bool) (live : ctx'.done = false) {height : Height} {blockHash : Hash}
    (accepted : (newVerifier set signatures strict).verifyQuorumCert ctx cert height blockHash signBytes = .ok ()) :
    (newVerifier set signatures strict').verifyQuorumCert ctx' cert height blockHash signBytes = .ok () := by
  rw [Verifier.verifyQuorumCert, bind_ok_iff] at accepted ⊢
  obtain ⟨_, _, checked⟩ := accepted
  exact ⟨(), require_ok_iff.mpr live, checked⟩

theorem links_checked_again {verifier other : Verifier} {index : Nat} {previousHeader : Header} {previousHash : Hash} {links : List CommitLink}
    (certs : ∀ link ∈ links.take (2 - index), ∀ height blockHash,
      verifier.verifyQuorumCert ctx link.quorumCert height blockHash link.signBytes = .ok () →
      other.verifyQuorumCert ctx' link.quorumCert height blockHash link.signBytes = .ok ())
    (accepted : verifier.verifyCommitLinks ctx proof index previousHeader previousHash links = .ok ()) :
    other.verifyCommitLinks ctx' proof index previousHeader previousHash links = .ok () := by
  induction links generalizing index previousHeader previousHash with
  | nil => rfl
  | cons link rest ih =>
    simp only [Verifier.verifyCommitLinks, ok_iff] at accepted ⊢
    obtain ⟨present, own, chain, sets, height, parent, certHeight, certHash, accepted⟩ := accepted
    refine ⟨present, own, chain, sets, height, parent, certHeight, certHash, ?_⟩
    by_cases early : index < 2
    · rw [if_pos early] at accepted ⊢
      obtain ⟨_, certified, later⟩ := bind_ok_iff.mp accepted
      rw [show 2 - index = 2 - (index + 1) + 1 by omega, take_succ_cons] at certs
      exact bind_ok (certs link mem_cons_self _ _ certified)
        (ih (forall_mem_cons.mp certs).2 later)
    · rw [if_neg early] at accepted ⊢
      refine ih (fun next listed => ?_) accepted
      rw [show 2 - (index + 1) = 0 by omega, take_zero] at listed
      cases listed

-- What a verifier accepts, a lenient one of the same set accepts that takes the certificates checked in it.
theorem proof_checked_again {verifier other : Verifier} (accepted : verifier.verifyFinalityProofWithContext ctx proof = .ok ())
    (same : other.validatorSet = verifier.validatorSet) (lenient : other.requireCommitChain = false) (live : ctx'.done = false)
    (certs : ∀ cert signBytes, (cert, signBytes) ∈ (proof.quorumCert, proof.signBytes) ::
        (proof.commitChain.take 2).map (fun link => (link.quorumCert, link.signBytes)) → ∀ height blockHash,
      verifier.verifyQuorumCert ctx cert height blockHash signBytes = .ok () → other.verifyQuorumCert ctx' cert height blockHash signBytes = .ok ()) :
    other.verifyFinalityProofWithContext ctx' proof = .ok () := by
  simp only [Verifier.verifyFinalityProofWithContext, ok_iff, same] at accepted ⊢
  obtain ⟨-, setHashes, setHeights, _, certified, chained⟩ := accepted
  refine ⟨live, setHashes, setHeights, (), certs _ _ mem_cons_self _ _ certified, ?_⟩
  unfold Verifier.verifyCommitChain at chained ⊢
  by_cases empty : proof.commitChain = []
  · rw [if_pos empty]
    exact require_ok_iff.mpr lenient
  · rw [if_neg empty] at chained ⊢
    simp only [ok_iff] at chained ⊢
    refine ⟨chained.1, links_checked_again (fun link listed => ?_) chained.2⟩
    exact certs _ _ (mem_cons_of_mem _ (mem_map_of_mem listed))

theorem registry_verify_lenient {registry : Registry} {signatures : Option SignatureVerifier} {strict : Bool} (live : ctx'.done = false)
    (accepted : (RegistryVerifier.mk (some registry) signatures strict).verifyFinalityProofWithContext ctx proof = .ok ()) :
    (RegistryVerifier.mk (some registry) signatures false).verifyFinalityProofWithContext ctx' proof = .ok () := by
  simp only [RegistryVerifier.verifyFinalityProofWithContext, ok_iff] at accepted ⊢
  obtain ⟨-, set, loaded, accepted⟩ := accepted
  refine ⟨live, set, loaded, proof_checked_again accepted rfl rfl live fun cert signBytes _ height blockHash certified => ?_⟩
  exact verify_quorum_cert_live set signatures strict false live certified

end Vexo.Finality

namespace Vexo.Crypto

open ByteCodec Checks

variable (publicKey : PublicKey)

-- The repository's own keyless scheme: a signature is a digest of the public key and the message.
def signWithPublicKey (message : Bytes) : Signature :=
  (Sha256.sum256 (publicKey ++ message)).bytes

def deterministicVerify (message : Bytes) (signature : Signature) : Bool :=
  publicKey ≠ [] ∧ signature ≠ [] ∧ signature = signWithPublicKey publicKey message

def deterministicAggregate (signatures : List Signature) : Except Err AggregateSignature := do
  require (signatures ≠ []) .emptySignature
  require ([] ∉ signatures) .emptySignature
  return (Sha256.sum256 signatures.flatten).bytes

def deterministicVerifyAggregate (publicKeys : List PublicKey) (message : Bytes) (signature : AggregateSignature) : Bool :=
  publicKeys ≠ [] ∧ signature ≠ [] ∧ [] ∉ publicKeys ∧
    deterministicAggregate (publicKeys.map fun publicKey => signWithPublicKey publicKey message) = .ok signature

end Vexo.Crypto

namespace Vexo.Finality

open ByteCodec Checks Verifier

variable (proof : Proof)

-- VerifyFinalityProof is the same call with the background context; strictness is a field of either verifier.
inductive Accepted : Prop
  | direct (verifier : Verifier) (ctx : Context) (accepted : verifier.verifyFinalityProofWithContext ctx proof = .ok ())
  | registry (verifier : RegistryVerifier) (ctx : Context)
      (accepted : verifier.verifyFinalityProofWithContext ctx proof = .ok ())

theorem accepted_checked {proof : Proof} (accepted : Accepted proof) : ∃ verifier, ProofChecked verifier proof := by
  cases accepted with
  | direct verifier ctx accepted => exact ⟨verifier, verify_finality_proof_ok accepted⟩
  | registry verifier ctx accepted =>
    obtain ⟨_, set, _, _, checked⟩ := registry_verify_ok accepted
    exact ⟨_, checked⟩

def soleValidator : SetSnapshot := ⟨[⟨utf8 "a", utf8 "a-pub", 1, 0⟩]⟩

def deterministicSignatures : SignatureVerifier := ⟨Crypto.deterministicVerifyAggregate⟩

variable (height : Height)

def signedCert (blockHash : Hash) : QuorumCert where
  height := height
  round := 0
  blockHash := blockHash
  signers := utf8 "a"
  signature :=
    match Crypto.domainMessage Crypto.domainConsensusVote (Signbytes.vote height 0 blockHash) with
    | .ok message => (Sha256.sum256 (Crypto.signWithPublicKey (utf8 "a-pub") message)).bytes
    | .error _ => []
  votingPower := 1

def headerAt (previousBlockHash appHash : Hash) : Header :=
  ⟨utf8 "vexo", height, 0, previousBlockHash, appHash, soleValidator.hash, zeroHash, zeroHash⟩

def otherAppHash : Hash := ⟨List.replicate 32 1, ones_length⟩

theorem digest_filled (hash : Hash) : hash.bytes ≠ [] := by
  intro empty
  have size := hash.size
  simp [empty] at size

def soleVerifier (strict : Bool) : Verifier := newVerifier soleValidator (some deterministicSignatures) strict

theorem sole_signature_accepted (message : Bytes) : Crypto.deterministicVerifyAggregate [utf8 "a-pub"] message
      (Sha256.sum256 (Crypto.signWithPublicKey (utf8 "a-pub") message)).bytes = true := by
  have keyFilled : [] ≠ utf8 "a-pub" := by with_unfolding_all decide
  have signatureFilled := digest_filled (Sha256.sum256 (utf8 "a-pub" ++ message))
  simp [Crypto.deterministicVerifyAggregate, Crypto.deterministicAggregate, Crypto.signWithPublicKey, keyFilled,
    digest_filled, signatureFilled.symm, require, bind, Except.bind, pure, Except.pure]

theorem signed_cert_accepted (strict : Bool) (height : Height) (blockHash : Hash) :
    (soleVerifier strict).verifyQuorumCert Context.background (signedCert height blockHash) height blockHash
      (Signbytes.vote height 0 blockHash) = .ok () := by
  have parsed : parseSigners (utf8 "a") = .ok [utf8 "a"] := by with_unfolding_all decide
  have tallied : tallySigners soleValidator [utf8 "a"] [] 0 [] = .ok (1, [utf8 "a-pub"]) := by with_unfolding_all decide
  have quorum : hasQuorum 1 soleValidator.totalVotingPower = true := by decide +kernel
  have domainFilled : Crypto.domainConsensusVote ≠ [] := by decide +kernel
  simp [verifyQuorumCert, signedCert, soleVerifier, newVerifier, signaturesAccept,
    domainAggregateVerifier, deterministicSignatures, Crypto.domainMessage, domainFilled, parsed, tallied, quorum,
    sole_signature_accepted, digest_filled, Context.background, bind_ok_iff]

-- The sole validator leaves before the second height.
def handedOver : RegistryVerifier where
  registry := some fun height => .ok (if height < 2 then soleValidator else ⟨[⟨utf8 "b", utf8 "b-pub", 1, 0⟩]⟩)
  signatures := some deterministicSignatures
  requireCommitChain := false

end Vexo.Finality

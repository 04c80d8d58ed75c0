import VexoConsensus.Finality.Accountability
import VexoConsensus.Slashing
import VexoConsensus.StateProof

namespace Vexo.Finality

open Checks Json Slashing List
open StateProof (hashDecoder)

structure ConflictProof where
  (first second : Proof)
deriving DecidableEq

def zeroHeader : Header := ⟨[], 0, 0, zeroHash, zeroHash, zeroHash, zeroHash, zeroHash⟩

def zeroProof : Proof := ⟨zeroHeader, zeroHash, zeroQC, [], 0, zeroHash⟩

def headerDecoder : Decoder Header :=
  intoStruct
    [field "ChainID" Header.chainID intoText fun header chainID => { header with chainID },
      field "Height" Header.height intoUint64 fun header height => { header with height },
      field "TimeUnixNano" Header.timeUnixNano intoInt64 fun header timeUnixNano => { header with timeUnixNano },
      field "PreviousBlockHash" Header.previousBlockHash hashDecoder fun header previousBlockHash => { header with previousBlockHash },
      field "AppHash" Header.appHash hashDecoder fun header appHash => { header with appHash },
      field "ValidatorSetHash" Header.validatorSetHash hashDecoder fun header validatorSetHash => { header with validatorSetHash },
      field "ConsensusHash" Header.consensusHash hashDecoder fun header consensusHash => { header with consensusHash },
      field "TxRoot" Header.txRoot hashDecoder fun header txRoot => { header with txRoot }]

def quorumCertDecoder : Decoder QuorumCert :=
  intoStruct
    [field "Height" QuorumCert.height intoUint64 fun cert height => { cert with height },
      field "Round" QuorumCert.round intoUint64 fun cert round => { cert with round },
      field "BlockHash" QuorumCert.blockHash hashDecoder fun cert blockHash => { cert with blockHash },
      field "Signers" QuorumCert.signers intoBytes fun cert signers => { cert with signers },
      field "Signature" QuorumCert.signature intoBytes fun cert signature => { cert with signature },
      field "VotingPower" QuorumCert.votingPower intoUint64 fun cert votingPower => { cert with votingPower }]

def commitLinkDecoder : Decoder CommitLink :=
  intoStruct
    [field "Header" CommitLink.header headerDecoder fun link header => { link with header },
      field "BlockHash" CommitLink.blockHash hashDecoder fun link blockHash => { link with blockHash },
      field "QuorumCert" CommitLink.quorumCert quorumCertDecoder fun link quorumCert => { link with quorumCert }]

def finalityProofDecoder : Decoder Proof :=
  intoStruct
    [field "Header" Proof.header headerDecoder fun proof header => { proof with header },
      field "BlockHash" Proof.blockHash hashDecoder fun proof blockHash => { proof with blockHash },
      field "QuorumCert" Proof.quorumCert quorumCertDecoder fun proof quorumCert => { proof with quorumCert },
      field "CommitChain" Proof.commitChain (intoList ⟨zeroHeader, zeroHash, zeroQC⟩ commitLinkDecoder) fun proof commitChain =>
        { proof with commitChain },
      field "ValidatorSetHeight" Proof.validatorSetHeight intoUint64 fun proof validatorSetHeight => { proof with validatorSetHeight },
      field "ValidatorSetHash" Proof.validatorSetHash hashDecoder fun proof validatorSetHash => { proof with validatorSetHash }]

def conflictProofDecoder : Decoder ConflictProof :=
  intoStruct
    [field "first" ConflictProof.first finalityProofDecoder fun pair first => { pair with first },
      field "second" ConflictProof.second finalityProofDecoder fun pair second => { pair with second }]

-- A document that is not JSON and one of another shape are told apart only by the text of their errors.
def decodeDocument {Target : Type} (zero : Target) (decoder : Decoder Target) (document : ByteCodec.Bytes) : Except Err Target :=
  match parse document with
  | none => .error .jsonSyntax
  | some value =>
    match decoder zero value with
    | none => .error .jsonType
    | some target => .ok target

def decodeConflictProof (proof : ByteCodec.Bytes) : Except Err ConflictProof :=
  decodeDocument ⟨zeroProof, zeroProof⟩ conflictProofDecoder proof

def hashValue (hash : Hash) : Value := .array (hash.bytes.map fun byte => integer byte.toNat)

def headerValue (header : Header) : Value :=
  object ["ChainID", "Height", "TimeUnixNano", "PreviousBlockHash", "AppHash", "ValidatorSetHash", "ConsensusHash", "TxRoot"]
    [text header.chainID, integer header.height.toNat, integer header.timeUnixNano.toInt, hashValue header.previousBlockHash,
      hashValue header.appHash, hashValue header.validatorSetHash, hashValue header.consensusHash, hashValue header.txRoot]

def quorumCertValue (cert : QuorumCert) : Value :=
  object ["Height", "Round", "BlockHash", "Signers", "Signature", "VotingPower"]
    [integer cert.height.toNat, integer cert.round.toNat, hashValue cert.blockHash, base64 cert.signers, base64 cert.signature,
      integer cert.votingPower.toNat]

def commitLinkValue (link : CommitLink) : Value :=
  object ["Header", "BlockHash", "QuorumCert"] [headerValue link.header, hashValue link.blockHash, quorumCertValue link.quorumCert]

variable (proof : Proof)

def finalityProofValue : Value :=
  object ["Header", "BlockHash", "QuorumCert", "CommitChain", "ValidatorSetHeight", "ValidatorSetHash"]
    [headerValue proof.header, hashValue proof.blockHash, quorumCertValue proof.quorumCert, list (proof.commitChain.map commitLinkValue),
      integer proof.validatorSetHeight.toNat, hashValue proof.validatorSetHash]

def conflictProofValue (pair : ConflictProof) : Value :=
  object ["first", "second"] [finalityProofValue pair.first, finalityProofValue pair.second]

theorem written_hash (hash : Hash) : Written (hashValue hash) := by
  refine .array fun item listed => ?_
  obtain ⟨byte, -, rfl⟩ := mem_map.mp listed
  exact written_integer _

theorem written_header (header : Header) : Written (headerValue header) := by
  refine written_object _ ?_
  simp only [forall_mem_cons]
  exact ⟨written_text _, written_integer _, written_integer _, written_hash _, written_hash _, written_hash _, written_hash _,
    written_hash _, by simp⟩

theorem written_cert (cert : QuorumCert) : Written (quorumCertValue cert) := by
  refine written_object _ ?_
  simp only [forall_mem_cons]
  exact ⟨written_integer _, written_integer _, written_hash _, written_base64 _, written_base64 _, written_integer _, by simp⟩

theorem read_hash (current hash : Hash) : hashDecoder current (hashValue hash) = some hash := by
  have whole : (hash.bytes.map fun byte => integer byte.toNat).take 32 = hash.bytes.map fun byte => integer byte.toNat :=
    take_of_length_le (by simp [hash.size])
  have items := @into_items UInt8 0 intoUint8 (fun byte => integer byte.toNat) hash.bytes (fun byte _ current => into_uint8 current byte)
    current.bytes
  have exact : (hash.bytes ++ replicate 32 0).take 32 = hash.bytes := take_left' hash.size
  simp only [hashValue, hashDecoder, whole, items, Option.map_some, exact]

theorem read_header (current header : Header) (valid : Utf8.Valid header.chainID) : headerDecoder current (headerValue header) = some header := by
  rw [headerDecoder, headerValue, into_object (by with_unfolding_all decide) (List.Subset.refl _) (by with_unfolding_all decide) rfl]
  simp [field, into_text _ valid, into_uint64, into_int64, read_hash]

theorem read_cert (current cert : QuorumCert) : quorumCertDecoder current (quorumCertValue cert) = some cert := by
  rw [quorumCertDecoder, quorumCertValue, into_object (by with_unfolding_all decide) (List.Subset.refl _) (by with_unfolding_all decide) rfl]
  simp [field, into_uint64, into_base64, read_hash]

theorem written_link (link : CommitLink) : Written (commitLinkValue link) := by
  refine written_object _ ?_
  simp only [forall_mem_cons]
  exact ⟨written_header _, written_hash _, written_cert _, by simp⟩

theorem written_proof : Written (finalityProofValue proof) := by
  have links : ∀ item ∈ proof.commitChain.map commitLinkValue, Written item := by
    intro item listed
    obtain ⟨link, -, rfl⟩ := mem_map.mp listed
    exact written_link link
  refine written_object _ ?_
  simp only [forall_mem_cons]
  exact ⟨written_header _, written_hash _, written_cert _, written_list links, written_integer _, written_hash _, by simp⟩

-- JSON text keeps only chain identifiers that are UTF-8.
def Spelled : Prop := Utf8.Valid proof.header.chainID ∧ ∀ link ∈ proof.commitChain, Utf8.Valid link.header.chainID

theorem read_link (current link : CommitLink) (valid : Utf8.Valid link.header.chainID) :
    commitLinkDecoder current (commitLinkValue link) = some link := by
  rw [commitLinkDecoder, commitLinkValue, into_object (by with_unfolding_all decide) (List.Subset.refl _) (by with_unfolding_all decide) rfl]
  simp [field, read_header _ _ valid, read_cert, read_hash]

theorem read_proof (current proof : Proof) (spelled : Spelled proof) : finalityProofDecoder current (finalityProofValue proof) = some proof := by
  have links := fun current => @into_list CommitLink ⟨zeroHeader, zeroHash, zeroQC⟩ commitLinkDecoder commitLinkValue proof.commitChain
    (fun link listed current => read_link current link (spelled.2 link listed)) current
  rw [finalityProofDecoder, finalityProofValue, into_object (by with_unfolding_all decide) (List.Subset.refl _) (by with_unfolding_all decide) rfl]
  simp [field, read_header _ _ spelled.1, read_cert, read_hash, links, into_uint64]

theorem decode_conflict_proof {pair : ConflictProof} (first : Spelled pair.first) (second : Spelled pair.second) :
    decodeConflictProof (render (conflictProofValue pair)) = .ok pair := by
  have written : Written (conflictProofValue pair) := by
    refine written_object _ ?_
    simp only [forall_mem_cons]
    exact ⟨written_proof _, written_proof _, by simp⟩
  have read : conflictProofDecoder ⟨zeroProof, zeroProof⟩ (conflictProofValue pair) = some pair := by
    rw [conflictProofDecoder, conflictProofValue, into_object (by with_unfolding_all decide) (List.Subset.refl _) (by with_unfolding_all decide) rfl]
    simp [field, read_proof _ _ first, read_proof _ _ second]
  have parsed : parse (render (conflictProofValue pair)) = some (conflictProofValue pair) := parse_render written
  simp only [decodeConflictProof, decodeDocument, parsed, read]

def containsSigner (signers : List ValidatorID) (target : ValidatorID) : Bool := signers.any fun signer => signer = target

variable (validatorSet : SetSnapshot) (signatures : Option SignatureVerifier)

def verifyConflictEvidence (evidence : Evidence) : Except Err AccountableSafetyViolation := do
  require (evidence.type = .finalityConflict) .unknownEvidenceType
  let decoded ← decodeConflictProof evidence.proof
  require (decoded.first.header.height = evidence.height ∧ decoded.second.header.height = evidence.height ∧
    decoded.first.quorumCert.round = evidence.round) .heightMismatch
  let verifier := newVerifier validatorSet signatures false
  verifier.verifyFinalityProof decoded.first
  verifier.verifyFinalityProof decoded.second
  let violation ← detectAccountableSafetyViolation validatorSet decoded.first decoded.second
  require (containsSigner violation.doubleSigners evidence.validator) .validatorNotInFinalityConflict
  return violation

def newConflictEvidence (first second : Proof) (validatorID : ValidatorID) : Except Err Evidence := do
  require (validatorID ≠ []) .missingValidator
  let violation ← detectAccountableSafetyViolation validatorSet first second
  require (containsSigner violation.doubleSigners validatorID) .validatorNotInFinalityConflict
  return ⟨.finalityConflict, validatorID, first.header.height, first.quorumCert.round, render (conflictProofValue ⟨first, second⟩)⟩

structure ConflictShown (evidence : Evidence) (pair : ConflictProof) : Prop where
  decoded : decodeConflictProof evidence.proof = .ok pair
  height : pair.first.header.height = evidence.height
  sameHeight : pair.second.header.height = evidence.height
  round : pair.first.quorumCert.round = evidence.round
  firstChecked : ProofChecked (newVerifier validatorSet signatures false) pair.first
  secondChecked : ProofChecked (newVerifier validatorSet signatures false) pair.second
  conflict : pair.first.quorumCert.blockHash ≠ pair.second.quorumCert.blockHash
  firstSigner : evidence.validator ∈ certSigners pair.first.quorumCert
  secondSigner : evidence.validator ∈ certSigners pair.second.quorumCert

theorem overlap_loop_shared {set : SetSnapshot} {second first seen overlapping : List ValidatorID} {power : VotingPower}
    {result : List ValidatorID × VotingPower} (looped : overlapLoop set second first seen overlapping power = .ok result) :
    ∀ signer ∈ result.1, signer ∈ overlapping ∨ signer ∈ first ∧ signer ∈ second := by
  induction first generalizing seen overlapping power with
  | nil =>
    cases looped
    exact fun signer listed => .inl listed
  | cons next rest ih =>
    rw [overlapLoop] at looped
    intro signer listed
    have later : ∀ {before : List ValidatorID}, (signer ∈ before ∨ signer ∈ rest ∧ signer ∈ second) →
        signer ∈ before ∨ signer ∈ next :: rest ∧ signer ∈ second :=
      fun found => found.imp_right (And.imp_left (mem_cons_of_mem _))
    split at looped
    · exact later (ih looped signer listed)
    · by_cases shared : next ∈ second
      · rw [if_neg (not_not.mpr shared)] at looped
        split at looped
        · cases looped
        · next validator found =>
          simp only [bind_ok_iff] at looped
          obtain ⟨sum, -, looped⟩ := looped
          rcases ih looped signer listed with earlier | tail
          · rcases mem_append.mp earlier with before | here
            · exact .inl before
            · cases mem_singleton.mp here
              exact .inr ⟨mem_cons_self .., shared⟩
          · exact .inr ⟨mem_cons_of_mem _ tail.1, tail.2⟩
      · rw [if_pos shared] at looped
        exact later (ih looped signer listed)

theorem conflict_evidence_shown {validatorSet : SetSnapshot} {signatures : Option SignatureVerifier} {evidence : Evidence}
    {violation : AccountableSafetyViolation} (accepted : verifyConflictEvidence validatorSet signatures evidence = .ok violation) :
    ∃ pair, ConflictShown validatorSet signatures evidence pair := by
  simp only [verifyConflictEvidence, detectAccountableSafetyViolation, detectAccountableSafetyViolationWithContext, ok_iff] at accepted
  obtain ⟨-, pair, decoded, ⟨height, sameHeight, round⟩, ⟨⟩, firstVerified, ⟨⟩, secondVerified, _, detected, named, -⟩ := accepted
  obtain ⟨-, -, conflict, -, -, set, loaded, -, first, firstParsed, second, secondParsed, detected⟩ := detected
  cases loaded
  obtain ⟨⟨shared, power⟩, overlapping, returned⟩ := detected
  cases returned
  have firstChecked := verify_finality_proof_ok firstVerified
  have secondChecked := verify_finality_proof_ok secondVerified
  rw [proof_block_hash_certified firstChecked, proof_block_hash_certified secondChecked] at conflict
  have listed : evidence.validator ∈ shared := by
    obtain ⟨signer, inside, same⟩ := any_eq_true.mp named
    cases of_decide_eq_true same
    exact inside
  obtain ⟨⟨loopShared, _⟩, looped, sorted⟩ := bind_ok_iff.mp overlapping
  cases sorted
  have inLoop := (sorted_signers_perm loopShared).mem_iff.mp listed
  rcases overlap_loop_shared looped _ inLoop with nowhere | ⟨inFirst, inSecond⟩
  · exact absurd nowhere not_mem_nil
  · exact ⟨pair, decoded, height, sameHeight, round, firstChecked, secondChecked, conflict, cert_signers_parsed firstParsed ▸ inFirst,
      cert_signers_parsed secondParsed ▸ inSecond⟩

end Vexo.Finality

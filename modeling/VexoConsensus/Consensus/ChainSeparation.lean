import VexoConsensus.Consensus.Framing
import VexoConsensus.RemoteSigner

namespace Vexo.Consensus

open ByteCodec Checks Finality RemoteSigner Crypto

section Chains

variable (hashed : Set Bytes)

structure OfChain (chainID : GoString) (block : Block) : Prop where
  chain : block.header.chainID = chainID
  inside : headerPreimage (sealedHeader block) ∈ hashed

-- What an honest holder of a key signs for a chain: a high certificate is absent or about a block of the chain.
inductive MadeFor (chainID : GoString) : Bytes → Prop where
  | proposal {proposal : Proposal} {message : Bytes} (own : OfChain hashed chainID proposal.block)
      (encoded : Crypto.domainMessage Crypto.domainConsensusProposal (proposalSignBytes proposal) = .ok message) : MadeFor chainID message
  | vote {vote : Vote} {block : Block} {message : Bytes} (own : OfChain hashed chainID block) (target : vote.blockHash = hashBlock block)
      (encoded : Crypto.domainMessage Crypto.domainConsensusVote (voteSignBytes vote) = .ok message) : MadeFor chainID message
  | timeoutVote {vote : TimeoutVote} {message : Bytes}
      (own : vote.highQC.blockHash = zeroHash ∨ ∃ block, OfChain hashed chainID block ∧ vote.highQC.blockHash = hashBlock block)
      (encoded : Crypto.domainMessage Crypto.domainConsensusTimeoutVote (timeoutVoteSignBytes vote) = .ok message) : MadeFor chainID message

end Chains

section Acceptance

def Event.sender : Event → ValidatorID
  | .proposal _ _ delivered => delivered.proposer
  | .vote _ delivered => delivered.validatorID
  | .timeoutVote _ _ delivered => delivered.validatorID

def Event.signature : Event → Signature
  | .proposal _ _ delivered => delivered.signature
  | .vote _ delivered => delivered.signature
  | .timeoutVote _ _ delivered => delivered.signature

def Event.message : Event → Except Err Bytes
  | .proposal _ _ delivered => Crypto.domainMessage Crypto.domainConsensusProposal (proposalSignBytes delivered)
  | .vote _ delivered => Crypto.domainMessage Crypto.domainConsensusVote (voteSignBytes delivered)
  | .timeoutVote _ _ delivered => Crypto.domainMessage Crypto.domainConsensusTimeoutVote (timeoutVoteSignBytes delivered)

variable (config : StateMachineConfig)

-- A timeout vote is taken when it is collected, whether or not its round has a quorum already.
def Accepts (machine : StateMachine) : Event → Prop
  | .proposal order ctx proposal => (onProposal config machine order ctx proposal).2 = .ok ()
  | .vote ctx vote => (onVote config machine ctx vote).2 = .ok ()
  | .timeoutVote _ ctx vote => ctx.done = false ∧ verifyTimeoutVoteSignature config machine (ensureTimeoutVoteSignature config vote) = .ok () ∧
      ∃ timeouts, machine.timeouts.addVote (ensureTimeoutVoteSignature config vote) = .ok timeouts

instance (outcome : Except Err TimeoutCollector) : Decidable (∃ timeouts, outcome = .ok timeouts) :=
  match outcome with
  | .ok timeouts => .isTrue ⟨timeouts, rfl⟩
  | .error _ => .isFalse (by rintro ⟨_, same⟩; cases same)

instance (config : StateMachineConfig) (machine : StateMachine) : (event : Event) → Decidable (Accepts config machine event)
  | .proposal order ctx proposal => inferInstanceAs (Decidable ((onProposal config machine order ctx proposal).2 = .ok ()))
  | .vote ctx vote => inferInstanceAs (Decidable ((onVote config machine ctx vote).2 = .ok ()))
  | .timeoutVote _ ctx vote => inferInstanceAs (Decidable (ctx.done = false ∧
      verifyTimeoutVoteSignature config machine (ensureTimeoutVoteSignature config vote) = .ok () ∧
      ∃ timeouts, machine.timeouts.addVote (ensureTimeoutVoteSignature config vote) = .ok timeouts))

-- A finalized block handed in is of the machine's chain, and a timeout vote names a certified block the machine has.
def Rooted (hashed : Set Bytes) (machine : StateMachine) : Call → Prop
  | .deliver (.proposal _ _ proposal) => headerPreimage (sealedHeader proposal.block) ∈ hashed
  | .deliver (.timeoutVote _ _ vote) => (machine.blockTree.get vote.highQC.blockHash).isSome
  | .observeCommittedBlock block _ => OfChain hashed config.chainID block
  | _ => True

def AllRooted (config : StateMachineConfig) (hashed : Set Bytes) : StateMachine → List Call → Prop
  | _, [] => True
  | machine, call :: rest => Rooted config hashed machine call ∧ AllRooted config hashed (perform config machine call) rest

end Acceptance

section Tree

variable {config : StateMachineConfig} {hashed : Set Bytes} {machine : StateMachine}

def OwnTree (config : StateMachineConfig) (hashed : Set Bytes) (machine : StateMachine) : Prop :=
  ChainSound config (OfChain hashed config.chainID) (fun _ => True) machine

theorem check_proposal_chain {ctx : Context} {proposal : Proposal} (checked : checkProposal config machine ctx proposal = .ok ()) :
    proposal.block.header.chainID = config.chainID := by
  simp only [checkProposal, ok_iff] at checked
  obtain ⟨-, -, _, -, _, -, chain, -⟩ := checked
  exact chain

variable (own : OwnTree config hashed machine)
include own

theorem on_proposal_own_tree (order : List Hash) (ctx : Context) {proposal : Proposal}
    (inside : headerPreimage (sealedHeader proposal.block) ∈ hashed) :
    OwnTree config hashed (onProposal config machine order ctx proposal).1 := by
  rcases on_proposal_effect config machine order ctx proposal with same | ⟨checked, -⟩
  · rw [same]
    exact own
  · exact on_proposal_chain_sound own order ctx proposal ⟨check_proposal_chain checked, inside⟩ fun _ => trivial

theorem perform_own_tree (call : Call) (rooted : Rooted config hashed machine call) : OwnTree config hashed (perform config machine call) := by
  cases call with
  | deliver event =>
    cases event with
    | proposal order ctx proposal => exact on_proposal_own_tree own order ctx rooted
    | vote ctx vote => exact on_vote_chain_sound own ctx vote
    | timeoutVote order ctx vote => exact on_timeout_chain_sound own order ctx vote
  | observeCommittedBlock block quorumCert => exact observe_chain_sound own rooted quorumCert
  | updateValidatorSet validatorSet | startRound height round => exact ⟨own.nodes, own.decisions⟩

theorem run_own_tree {earlier later : List Call} {call : Call} (rooted : AllRooted config hashed machine (earlier ++ call :: later)) :
    OwnTree config hashed (performAll config machine earlier) ∧ Rooted config hashed (performAll config machine earlier) call := by
  induction earlier generalizing machine with
  | nil => exact ⟨own, rooted.1⟩
  | cons first rest ih => exact ih (perform_own_tree own first rooted.1) rooted.2

end Tree

section Binding

variable {config : StateMachineConfig} {hashed : Set Bytes} {machine : StateMachine} {chainID : GoString} {message : Bytes}

theorem timeout_sign_bytes_bind {first second : TimeoutVote} (same : timeoutVoteSignBytes first = timeoutVoteSignBytes second) :
    first.highQC.blockHash = second.highQC.blockHash := by
  unfold timeoutVoteSignBytes appendQuorumCert at same
  obtain ⟨-, same⟩ := List.append_inj same (by simp)
  obtain ⟨same, -⟩ := List.append_inj' same (by rw [Sha256.Digest.size, Sha256.Digest.size])
  obtain ⟨same, -⟩ := List.append_inj' same (by simp)
  obtain ⟨-, hashes⟩ := List.append_inj same (by simp)
  exact digest_bytes_inj hashes

-- The block a message is about: the proposed one, the one voted for, or the one the high certificate is for.
inductive Names : Hash → Bytes → Prop where
  | proposal {proposal : Proposal} {message : Bytes}
      (encoded : Crypto.domainMessage Crypto.domainConsensusProposal (proposalSignBytes proposal) = .ok message) :
      Names (hashBlock proposal.block) message
  | vote {vote : Vote} {message : Bytes}
      (encoded : Crypto.domainMessage Crypto.domainConsensusVote (voteSignBytes vote) = .ok message) : Names vote.blockHash message
  | timeoutVote {vote : TimeoutVote} {message : Bytes}
      (encoded : Crypto.domainMessage Crypto.domainConsensusTimeoutVote (timeoutVoteSignBytes vote) = .ok message) :
      Names vote.highQC.blockHash message

theorem names_unique {first second : Hash} (names : Names first message) (again : Names second message) : first = second := by
  -- Two messages of different kinds start with different domains.
  have apart : ∀ {type other : RemoteSigner.SignType} {height height' : Height} {round round' : Round}, MessageOf type height round message →
      MessageOf other height' round' message → type = other := fun made made' => (message_of_unique made made').1
  cases names with
  | proposal encoded =>
    cases again with
    | proposal encoded' => exact (proposal_sign_bytes_bind (domain_message_injective encoded encoded')).2
    | vote encoded' => cases apart (.proposal encoded) (.vote encoded')
    | timeoutVote encoded' => cases apart (.proposal encoded) (.timeoutVote encoded')
  | vote encoded =>
    cases again with
    | proposal encoded' => cases apart (.vote encoded) (.proposal encoded')
    | vote encoded' => exact (vote_sign_bytes_injective (domain_message_injective encoded encoded')).2.2
    | timeoutVote encoded' => cases apart (.vote encoded) (.timeoutVote encoded')
  | timeoutVote encoded =>
    cases again with
    | proposal encoded' => cases apart (.timeoutVote encoded) (.proposal encoded')
    | vote encoded' => cases apart (.timeoutVote encoded) (.vote encoded')
    | timeoutVote encoded' => exact timeout_sign_bytes_bind (domain_message_injective encoded encoded')

theorem MadeFor.names (made : MadeFor hashed chainID message) :
    ∃ hash, Names hash message ∧ (hash = zeroHash ∨ ∃ block, OfChain hashed chainID block ∧ hash = hashBlock block) := by
  cases made with
  | proposal own encoded => exact ⟨_, .proposal encoded, .inr ⟨_, own, rfl⟩⟩
  | vote own target encoded => exact ⟨_, .vote encoded, .inr ⟨_, own, target⟩⟩
  | timeoutVote own encoded => exact ⟨_, .timeoutVote encoded, own⟩

theorem same_hash_same_chain (safe : SafeHashes hashed) {other : GoString} {first second : Block} (own : OfChain hashed chainID first)
    (own' : OfChain hashed other second) (same : hashBlock first = hashBlock second) : chainID = other := by
  have headers := header_preimage_injective (safe.collisionFree _ own.inside _ own'.inside same)
  have chains := congrArg Header.chainID headers
  rw [sealed_header_chain, sealed_header_chain] at chains
  rw [← own.chain, chains, own'.chain]

theorem found_block (hashing : config.hashBlock = hashBlock) (own : OwnTree config hashed machine) {key : Hash} {node : BlockNode}
    (found : machine.blockTree.get key = some node) : ∃ block, OfChain hashed config.chainID block ∧ key = hashBlock block := by
  have sound := own.nodes key node found
  exact ⟨node.block, sound.known, by rw [← hashing, sound.hashed]⟩

theorem accepted_vote_checked {ctx : Context} {vote : Vote} (accepted : (onVote config machine ctx vote).2 = .ok ()) :
    (machine.validatorSet.get vote.validatorID).isSome ∧ validateVote config machine (ensureVoteSignature config vote) = .ok () := by
  unfold onVote at accepted
  split at accepted
  · cases accepted
  · split at accepted
    · cases accepted
    · next missing =>
      cases checked : validateVote config machine (ensureVoteSignature config vote) with
      | error reason =>
        simp only [checked] at accepted
        cases accepted
      | ok valid => exact ⟨by simpa [Option.isSome_iff_ne_none] using missing, rfl⟩

theorem validated_vote_target {vote : Vote} (valid : validateVote config machine vote = .ok ()) :
    ∃ node, machine.blockTree.get vote.blockHash = some node := by
  simp only [validateVote, ok_iff] at valid
  obtain ⟨-, -, _, -, -, -, target⟩ := valid
  cases found : machine.blockTree.get vote.blockHash with
  | none =>
    rw [found] at target
    cases target
  | some node => exact ⟨node, rfl⟩

variable {event : Event}

theorem accepted_names (hashing : config.hashBlock = hashBlock) (own : OwnTree config hashed machine)
    (rooted : Rooted config hashed machine (.deliver event)) (accepted : Accepts config machine event) (encoded : event.message = .ok message) :
    ∃ block, OfChain hashed config.chainID block ∧ Names (hashBlock block) message := by
  cases event with
  | proposal order ctx proposal =>
    exact ⟨proposal.block, ⟨check_proposal_chain (accepted_checked accepted), rooted⟩, .proposal encoded⟩
  | vote ctx vote =>
    obtain ⟨node, found⟩ := validated_vote_target (accepted_vote_checked accepted).2
    rw [(ensure_vote_fields config vote).2.2.1] at found
    obtain ⟨block, chain, target⟩ := found_block hashing own found
    exact ⟨block, chain, target ▸ .vote encoded⟩
  | timeoutVote order ctx vote =>
    obtain ⟨node, found⟩ := Option.isSome_iff_exists.mp rooted
    obtain ⟨block, chain, target⟩ := found_block hashing own found
    exact ⟨block, chain, target ▸ .timeoutVote encoded⟩

theorem accepted_not_foreign (hashing : config.hashBlock = hashBlock) (safe : SafeHashes hashed) (own : OwnTree config hashed machine)
    (rooted : Rooted config hashed machine (.deliver event)) (accepted : Accepts config machine event)
    (encoded : event.message = .ok message) (other : chainID ≠ config.chainID) : ¬ MadeFor hashed chainID message := by
  intro made
  obtain ⟨block, chain, names⟩ := accepted_names hashing own rooted accepted encoded
  obtain ⟨hash, named, source⟩ := made.names
  cases names_unique names named
  rcases source with zero | ⟨foreign, foreignChain, same⟩
  · exact safe.neverZero _ chain.inside zero
  · exact other (same_hash_same_chain safe foreignChain chain same.symm)

variable {verify : VerifySignature} {validator : Validator}
variable (checking : config.signatures = some verify)
include checking

theorem verified_signature {domain : GoString} {missing invalid : Err} {id : ValidatorID} {signBytes : Bytes} {signature : Signature}

    (member : machine.validatorSet.get id = some validator) (encoded : domainMessage domain signBytes = .ok message)
    (verified : verifySignature config machine domain missing invalid id signBytes signature = .ok ()) :
    verify validator.publicKey message signature = true := by
  simp only [verifySignature, checking, member, encoded, ok_iff] at verified
  obtain ⟨-, own, same, valid⟩ := verified
  cases same
  exact valid

theorem accepted_verified (member : machine.validatorSet.get event.sender = some validator) (accepted : Accepts config machine event)
    (encoded : event.message = .ok message) : verify validator.publicKey message event.signature = true := by
  cases event with
  | proposal order ctx proposal =>
    have checked := accepted_checked accepted
    simp only [checkProposal, ok_iff] at checked
    obtain ⟨-, -, _, -, _, verified, -⟩ := checked
    exact verified_signature checking member encoded verified
  | vote ctx vote =>
    have kept : ensureVoteSignature config vote = vote := if_pos (.inl (by simp [checking]))
    have valid := (accepted_vote_checked accepted).2
    simp only [kept, validateVote, ok_iff] at valid
    obtain ⟨-, -, _, verified, -⟩ := valid
    exact verified_signature checking member encoded verified
  | timeoutVote order ctx vote =>
    have kept : ensureTimeoutVoteSignature config vote = vote := if_pos (.inl (by simp [checking]))
    obtain ⟨-, verified, -⟩ := accepted
    rw [kept] at verified
    exact verified_signature checking member encoded verified

end Binding

-- The log of what the holder of each honest key signed, chain by chain.
structure SigningLog (hashed : Set Bytes) (config : StateMachineConfig) (Honest : PublicKey → Prop)
    (Signed : GoString → PublicKey → Bytes → Prop) : Prop where
  faithful : ∀ chainID key message, Honest key → Signed chainID key message → MadeFor hashed chainID message
  unforgeable : ∀ verify, config.signatures = some verify → ∀ key message signature, Honest key →
    verify key message signature = true → ∃ chainID, Signed chainID key message

theorem accepts_own_chain_only {config : StateMachineConfig} (hashing : config.hashBlock = hashBlock) {hashed : Set Bytes}
    (safe : SafeHashes hashed) {Honest : PublicKey → Prop} {Signed : GoString → PublicKey → Bytes → Prop}
    (log : SigningLog hashed config Honest Signed) (set : SetSnapshot) {earlier later : List Call} {event : Event}
    (rooted : AllRooted config hashed (newStateMachine config set) (earlier ++ .deliver event :: later)) :
    let machine := performAll config (newStateMachine config set) earlier
    ∀ validator message, machine.validatorSet.get event.sender = some validator → Honest validator.publicKey →
      event.message = .ok message → Accepts config machine event →
      (∀ chainID, chainID ≠ config.chainID → ¬ Signed chainID validator.publicKey message) ∧
        (config.signatures.isSome → Signed config.chainID validator.publicKey message) := by
  intro machine validator message member honest encoded accepted
  obtain ⟨own, stepRooted⟩ := run_own_tree (chain_sound_new set) rooted
  have foreign : ∀ chainID, chainID ≠ config.chainID → ¬ Signed chainID validator.publicKey message := by
    intro chainID other signed
    exact accepted_not_foreign hashing safe own stepRooted accepted encoded other (log.faithful _ _ _ honest signed)
  refine ⟨foreign, ?_⟩
  intro configured
  obtain ⟨verify, checking⟩ := Option.isSome_iff_exists.mp configured
  obtain ⟨chainID, signed⟩ :=
    log.unforgeable verify checking _ _ _ honest (accepted_verified checking member accepted encoded)
  by_cases same : chainID = config.chainID
  · exact same ▸ signed
  · exact absurd signed (foreign chainID same)

def sharedBlock : Block := soleBlock ⟨[plainValidator]⟩

def sharedProposal : Event := .proposal [] Context.background ⟨sharedBlock, 0, plainValidator.id, zeroQC, [1]⟩
def sharedVote : Event := .vote Context.background ⟨1, 0, hashBlock sharedBlock, plainValidator.id, [1]⟩

def sharedTimeout (highQC : QuorumCert) : Event := .timeoutVote [] Context.background ⟨2, 0, plainValidator.id, highQC, [1]⟩

def sharedCert : QuorumCert := { zeroQC with height := 1, blockHash := hashBlock sharedBlock }

def Event.bytes (event : Event) : Bytes := event.message.toOption.getD []

def sharedOwn : List Bytes := [sharedProposal.bytes, sharedVote.bytes, (sharedTimeout sharedCert).bytes]
def sharedForeign : Bytes := (sharedTimeout zeroQC).bytes

def sharedSigned (chainID : GoString) (_ : PublicKey) (message : Bytes) : Prop :=
  (chainID = utf8 "vexo" ∧ message ∈ sharedOwn) ∨ (chainID = utf8 "other" ∧ message = sharedForeign)

def sharedVerify : VerifySignature := fun _ message signature => signature = [1] ∧ message ∈ sharedForeign :: sharedOwn

def sharedConfig : StateMachineConfig := ⟨utf8 "vexo", hashBlock, some sharedVerify, some echoAggregate, false, id⟩

def sharedHashed : Set Bytes := {headerPreimage (sealedHeader sharedBlock)}

theorem Event.bytes_encoded (event : Event) : event.message = .ok event.bytes := by
  have named : domainConsensusProposal ≠ [] ∧ domainConsensusVote ≠ [] ∧ domainConsensusTimeoutVote ≠ [] := by
    with_unfolding_all decide
  obtain ⟨message, encoded⟩ : ∃ message, event.message = .ok message := by
    cases event with
    | proposal order ctx proposal => exact domain_message_ok _ named.1
    | vote ctx vote => exact domain_message_ok _ named.2.1
    | timeoutVote order ctx vote => exact domain_message_ok _ named.2.2
  rw [Event.bytes, encoded]
  rfl

theorem shared_block_own : OfChain sharedHashed (utf8 "vexo") sharedBlock := ⟨rfl, rfl⟩

theorem shared_log : SigningLog sharedHashed sharedConfig (fun _ => True) sharedSigned := by
  constructor
  · rintro chainID key message - (⟨rfl, member⟩ | ⟨rfl, rfl⟩)
    · simp only [sharedOwn, List.mem_cons, List.not_mem_nil, or_false] at member
      rcases member with rfl | rfl | rfl
      · exact .proposal shared_block_own sharedProposal.bytes_encoded
      · exact .vote shared_block_own rfl sharedVote.bytes_encoded
      · exact .timeoutVote (.inr ⟨_, shared_block_own, rfl⟩) (sharedTimeout sharedCert).bytes_encoded
    · exact .timeoutVote (.inl rfl) (sharedTimeout zeroQC).bytes_encoded
  · rintro verify checking key message signature - verified
    cases checking
    obtain ⟨-, listed⟩ := of_decide_eq_true verified
    rcases List.mem_cons.mp listed with rfl | own
    · exact ⟨_, .inr ⟨rfl, rfl⟩⟩
    · exact ⟨_, .inl ⟨rfl, own⟩⟩

theorem shared_safe : SafeHashes sharedHashed := by
  constructor
  · rintro first rfl second rfl -
    rfl
  · rintro message rfl
    decide +kernel

def sharedRun : List Call := [.deliver sharedProposal, .deliver sharedVote]
def sharedStart : StateMachine := newStateMachine sharedConfig ⟨[plainValidator]⟩

theorem shared_evaluated : (sharedConfig.chainID ≠ utf8 "other" ∧ sharedStart.validatorSet.get plainValidator.id = some plainValidator ∧
      (Accepts sharedConfig sharedStart (sharedTimeout zeroQC))) ∧
    let machine := performAll sharedConfig sharedStart sharedRun
    (machine.blockTree.get (hashBlock sharedBlock)).isSome ∧ machine.validatorSet.get plainValidator.id = some plainValidator ∧
      Accepts sharedConfig machine (sharedTimeout sharedCert) := by
  decide +kernel

-- A timeout vote signed for another chain before its first certificate is collected.
theorem foreign_timeout_collected :
    SafeHashes sharedHashed ∧ SigningLog sharedHashed sharedConfig (fun _ => True) sharedSigned ∧ sharedConfig.hashBlock = hashBlock ∧
      sharedConfig.chainID ≠ utf8 "other" ∧ (sharedTimeout zeroQC).message = .ok sharedForeign ∧
      sharedSigned (utf8 "other") plainValidator.publicKey sharedForeign ∧
      sharedStart.validatorSet.get (sharedTimeout zeroQC).sender = some plainValidator ∧ Accepts sharedConfig sharedStart (sharedTimeout zeroQC) := by
  obtain ⟨⟨other, member, accepted⟩, -⟩ := shared_evaluated
  exact ⟨shared_safe, shared_log, rfl, other, (sharedTimeout zeroQC).bytes_encoded, .inr ⟨rfl, rfl⟩, member, accepted⟩

theorem shared_run_accepted : AllRooted sharedConfig sharedHashed sharedStart (sharedRun ++ [.deliver (sharedTimeout sharedCert)]) ∧
      Accepts sharedConfig (performAll sharedConfig sharedStart sharedRun) (sharedTimeout sharedCert) ∧
      sharedSigned (utf8 "vexo") plainValidator.publicKey (sharedTimeout sharedCert).bytes ∧
      ¬ sharedSigned (utf8 "other") plainValidator.publicKey (sharedTimeout sharedCert).bytes := by
  obtain ⟨⟨other, -⟩, found, member, accepted⟩ := shared_evaluated
  have rooted : AllRooted sharedConfig sharedHashed sharedStart (sharedRun ++ [.deliver (sharedTimeout sharedCert)]) :=
    ⟨shared_block_own.inside, trivial, found, trivial⟩
  have separated := accepts_own_chain_only rfl shared_safe shared_log ⟨[plainValidator]⟩ rooted plainValidator _ member trivial
    (sharedTimeout sharedCert).bytes_encoded accepted
  exact ⟨rooted, accepted, separated.2 rfl, separated.1 _ other.symm⟩

end Vexo.Consensus

import VexoConsensus.Consensus.BlockTree
import VexoConsensus.Lib.Base64
import VexoConsensus.Lib.TextCodec
import VexoConsensus.Lib.Transitions

namespace Vexo.RemoteSigner

open ByteCodec Checks OrderedMap List AList Consensus

inductive SignerErr where
  | methodNotAllowed | unauthorized | badJSON | nonceReplayed | nonceNotSaved | publicKeyMismatch | corruptBase64 | missingSignPolicy
  | invalidSignPolicy | doubleSign | guardNotSaved | signFailed
deriving DecidableEq

def SignerErr.status : SignerErr → Nat
  | .methodNotAllowed => 405
  | .unauthorized => 401
  | .badJSON | .corruptBase64 => 400
  | .nonceNotSaved | .signFailed => 500
  | .nonceReplayed | .publicKeyMismatch | .missingSignPolicy | .invalidSignPolicy | .doubleSign | .guardNotSaved => 403

inductive SignType where
  | consensusProposal | consensusVote | consensusTimeoutVote | finalityProof
deriving DecidableEq

def SignType.text : SignType → GoString
  | .consensusProposal => utf8 "consensus_proposal"
  | .consensusVote => utf8 "consensus_vote"
  | .consensusTimeoutVote => utf8 "consensus_timeout_vote"
  | .finalityProof => utf8 "finality_proof"

def domainFinalityProof : GoString := utf8 "vexo.finality.proof.v1"

def SignType.domain : SignType → GoString
  | .consensusProposal => Crypto.domainConsensusProposal
  | .consensusVote => Crypto.domainConsensusVote
  | .consensusTimeoutVote => Crypto.domainConsensusTimeoutVote
  | .finalityProof => domainFinalityProof

def SignType.parse (text : GoString) : Option SignType :=
  [.consensusProposal, .consensusVote, .consensusTimeoutVote, .finalityProof].find? fun type => type.text = text

-- A policy is read from JSON, so its texts are UTF-8.
structure SignPolicy where
  chainID : GoString
  height : Height
  round : Round
  (type domain : GoString)
  decoded : Utf8.Valid chainID

def SignPolicy.validate (policy : SignPolicy) : Except SignerErr Unit := do
  require (policy.chainID ≠ [] ∧ policy.height ≠ 0 ∧ policy.type ≠ [] ∧ policy.domain ≠ []) .missingSignPolicy
  require ((SignType.parse policy.type).map SignType.domain = some policy.domain) .invalidSignPolicy

def SignPolicy.guardKey (policy : SignPolicy) : GoString :=
  policy.chainID ++ (47 :: Decimal.format policy.height.toNat ++ (47 :: Decimal.format policy.round.toNat ++
    (47 :: policy.type ++ 47 :: policy.domain)))

structure RemoteSignerPolicy where
  chainID : GoString
  (minHeight maxHeight : Height)
  allowedTypes : List GoString
  requirePolicy : Bool
  authToken : GoString

def RemoteSignerPolicy.validate (policy : RemoteSignerPolicy) : Option SignPolicy → Except SignerErr Unit
  | none => require (¬ policy.requirePolicy) .missingSignPolicy
  | some signPolicy => do
      signPolicy.validate
      require (policy.chainID = [] ∨ signPolicy.chainID = policy.chainID) .invalidSignPolicy
      require (policy.minHeight = 0 ∨ policy.minHeight ≤ signPolicy.height) .invalidSignPolicy
      require (policy.maxHeight = 0 ∨ signPolicy.height ≤ policy.maxHeight) .invalidSignPolicy
      require (policy.allowedTypes = [] ∨ signPolicy.type ∈ policy.allowedTypes) .invalidSignPolicy

theorem valid_append {left right : Bytes} (leftValid : Utf8.Valid left) (rightValid : Utf8.Valid right) : Utf8.Valid (left ++ right) := by
  obtain ⟨first, rfl⟩ := leftValid
  obtain ⟨second, rfl⟩ := rightValid
  exact ⟨first ++ second, (List.flatMap_append ..).symm⟩

theorem format_valid (number : Nat) : Utf8.Valid (47 :: Decimal.format number) := by
  refine Utf8.valid_small fun byte listed => ?_
  rcases List.mem_cons.mp listed with rfl | listed
  · decide
  · have digit := Decimal.format_digits number listed
    simp only [Decimal.isDigit, decide_eq_true_eq] at digit
    exact UInt8.lt_of_le_of_lt digit.2 (by decide)

theorem parse_ok {text : GoString} {type : SignType} (parsed : SignType.parse text = some type) : text = type.text := by
  rw [SignType.parse] at parsed
  have found := List.find?_some parsed
  exact (of_decide_eq_true found).symm

theorem SignPolicy.validate_ok {policy : SignPolicy} (valid : policy.validate = .ok ()) :
    ∃ type, policy.type = SignType.text type ∧ policy.domain = SignType.domain type := by
  simp only [SignPolicy.validate, ok_iff] at valid
  obtain ⟨type, parsed, domain⟩ := Option.map_eq_some_iff.mp valid.2
  exact ⟨type, parse_ok parsed, domain.symm⟩

theorem SignPolicy.guard_key_valid {policy : SignPolicy} (valid : policy.validate = .ok ()) : Utf8.Valid policy.guardKey := by
  obtain ⟨type, text, domain⟩ := SignPolicy.validate_ok valid
  have plain : ((47 :: type.text ++ 47 :: type.domain).all fun byte => byte < 128) = true := by cases type <;> with_unfolding_all decide
  have tail : Utf8.Valid (47 :: type.text ++ 47 :: type.domain) :=
    Utf8.valid_ascii plain
  rw [SignPolicy.guardKey, text, domain]
  exact valid_append policy.decoded (valid_append (format_valid _) (valid_append (format_valid _) tail))

-- Digests by guard key; a key that is UTF-8 is read back from the snapshot as it was written.
structure Records where
  digests : Table GoString Hash
  readable : ∀ key digest, digests.lookup key = some digest → Utf8.Valid key

def Records.insert (records : Records) (key : GoString) (digest : Hash) (valid : Utf8.Valid key) : Records where
  digests := records.digests.insert key digest
  readable := by
    intro other found present
    rcases lookup_insert_cases present with ⟨rfl, -⟩ | ⟨-, present⟩
    · exact valid
    · exact records.readable other found present

structure DoubleSignGuard where
  (seen saved : Records)

-- The last argument says whether the snapshot is written and renamed; the record stays in memory where it is not.
def DoubleSignGuard.checkAndRemember (guard : DoubleSignGuard) (policy : SignPolicy) (message : Bytes) (renamed : Bool) :
    Except SignerErr Unit × DoubleSignGuard :=
  match checked : policy.validate with
  | .error reason => (.error reason, guard)
  | .ok () =>
    let digest := Sha256.sum256 message
    if (guard.seen.digests.lookup policy.guardKey).any fun previous => previous ≠ digest then (.error .doubleSign, guard)
    else
      let seen := guard.seen.insert policy.guardKey digest (SignPolicy.guard_key_valid checked)
      if renamed then (.ok (), ⟨seen, seen⟩) else (.error .guardNotSaved, { guard with seen })

structure RemoteSignerNonceGuard where
  (order saved : List GoString)
  fileBacked : Bool

def maxNonces : Nat := 4096

def RemoteSignerNonceGuard.rememberNonce (guard : RemoteSignerNonceGuard) (nonce : GoString) (renamed : Bool) :
    Except SignerErr Bool × RemoteSignerNonceGuard :=
  if nonce = [] ∨ nonce ∈ guard.order then (.ok true, guard)
  else
    let order := guard.order ++ [nonce]
    let order := order.drop (order.length - maxNonces)
    if ¬ guard.fileBacked then (.ok false, { guard with order })
    else if renamed then (.ok false, { guard with order, saved := order })
    else (.error .nonceNotSaved, { guard with order })

structure RemoteSignerService where
  publicKey : PublicKey
  sign : Bytes → Except SignerErr Signature
  policy : RemoteSignerPolicy
  guard : DoubleSignGuard
  nonceGuard : RemoteSignerNonceGuard

structure RemoteSignRequest where
  (publicKey message : GoString)
  policy : Option SignPolicy
  nonce : GoString

-- An HTTP request; the payload is what the body decodes to.
structure Request where
  (method authorization : GoString)
  payload : Option RemoteSignRequest

structure Renames where
  (nonces records : Bool)

def bearerAuthorized (header token : GoString) : Bool := Sha256.sum256 header = Sha256.sum256 (utf8 "Bearer " ++ token)

variable (service : RemoteSignerService)

def seenNonce (nonce : GoString) (renamed : Bool) : Except SignerErr Unit × RemoteSignerService :=
  if service.policy.authToken = [] then (.ok (), service)
  else
    let (seen, nonceGuard) := service.nonceGuard.rememberNonce nonce renamed
    let outcome := match seen with
      | .error reason => .error reason
      | .ok true => .error .nonceReplayed
      | .ok false => .ok ()
    (outcome, { service with nonceGuard })

def decodeBase64 (text : GoString) (reason : SignerErr) : Except SignerErr Bytes :=
  match Base64.decodeStd text with
  | some bytes => .ok bytes
  | none => .error reason

-- The checks between the nonce and the guard, and the message they are about.
def checkedMessage (payload : RemoteSignRequest) : Except SignerErr Bytes := do
  let publicKey ← decodeBase64 payload.publicKey .publicKeyMismatch
  require (publicKey = service.publicKey) .publicKeyMismatch
  let message ← decodeBase64 payload.message .corruptBase64
  service.policy.validate payload.policy
  return message

def guarded (policy : Option SignPolicy) (message : Bytes) (renamed : Bool) : Except SignerErr Unit × RemoteSignerService :=
  match policy with
  | none => (.ok (), service)
  | some policy =>
    let (outcome, guard) := service.guard.checkAndRemember policy message renamed
    (outcome, { service with guard })

def serveHTTP (request : Request) (renames : Renames) : Except SignerErr Signature × RemoteSignerService :=
  if request.method ≠ utf8 "POST" then (.error .methodNotAllowed, service)
  else if service.policy.authToken ≠ [] ∧ ¬ bearerAuthorized request.authorization service.policy.authToken then (.error .unauthorized, service)
  else
    match request.payload with
    | none => (.error .badJSON, service)
    | some payload =>
      match seenNonce service payload.nonce renames.nonces with
      | (.error reason, service) => (.error reason, service)
      | (.ok (), service) =>
        match checkedMessage service payload with
        | .error reason => (.error reason, service)
        | .ok message =>
          match guarded service payload.policy message renames.records with
          | (.error reason, service) => (.error reason, service)
          | (.ok (), service) => (service.sign message, service)

-- A new process with the same settings that loads both snapshots.
def restart : RemoteSignerService :=
  { service with
    guard := { service.guard with seen := service.guard.saved }
    nonceGuard := { service.nonceGuard with order := service.nonceGuard.saved } }

section Runs

structure System where
  service : RemoteSignerService
  signed : List Bytes

inductive Event where
  | request (request : Request) (renames : Renames)
  | restart

def Request.message (request : Request) : Option Bytes := request.payload.bind fun payload => Base64.decodeStd payload.message

inductive Step : System → Event → System → Prop where
  | signed {system : System} {request : Request} {renames : Renames} {signature : Signature} {next : RemoteSignerService} {message : Bytes}
      (done : serveHTTP system.service request renames = (.ok signature, next)) (read : request.message = some message) :
      Step system (.request request renames) ⟨next, message :: system.signed⟩
  | refused {system : System} {request : Request} {renames : Renames} {reason : SignerErr} {next : RemoteSignerService}
      (done : serveHTTP system.service request renames = (.error reason, next)) : Step system (.request request renames) ⟨next, system.signed⟩
  | restarted {system : System} : Step system .restart ⟨RemoteSigner.restart system.service, system.signed⟩

-- The message is the domain-separated one of a proposal, a vote or a timeout vote at this height and round.
inductive MessageOf : SignType → Height → Round → Bytes → Prop where
  | proposal {proposal : Consensus.Proposal} {message : Bytes}
      (encoded : Crypto.domainMessage Crypto.domainConsensusProposal (Consensus.proposalSignBytes proposal) = .ok message) :
      MessageOf .consensusProposal proposal.block.header.height proposal.round message
  | vote {vote : Consensus.Vote} {message : Bytes}
      (encoded : Crypto.domainMessage Crypto.domainConsensusVote (Consensus.voteSignBytes vote) = .ok message) :
      MessageOf .consensusVote vote.height vote.round message
  | timeoutVote {vote : Consensus.TimeoutVote} {message : Bytes}
      (encoded : Crypto.domainMessage Crypto.domainConsensusTimeoutVote (Consensus.timeoutVoteSignBytes vote) = .ok message) :
      MessageOf .consensusTimeoutVote vote.height vote.round message

variable (chainOf : Bytes → GoString)

def Describes (policy : SignPolicy) (message : Bytes) : Prop :=
  ∀ type height round, MessageOf type height round message →
    policy.type = SignType.text type ∧ policy.height = height ∧ policy.round = round ∧ policy.chainID = chainOf message

-- Requests state policies that describe their messages, and their messages are among those without a common hash.
def Truthful (hashed : Set Bytes) : System → Event → Prop
  | _, .request request _ => ∀ message, request.message = some message →
      message ∈ hashed ∧ ∀ policy, request.payload.bind RemoteSignRequest.policy = some policy → Describes chainOf policy message
  | _, .restart => True

variable {service next : RemoteSignerService} {guard after : DoubleSignGuard} {policy : SignPolicy} {message : Bytes}

def Kept (first second : Records) : Prop := ∀ key digest, first.digests.lookup key = some digest → second.digests.lookup key = some digest

theorem check_cases {renamed : Bool} {outcome : Except SignerErr Unit} (done : guard.checkAndRemember policy message renamed = (outcome, after)) :
    Kept guard.seen after.seen ∧ (after.saved = guard.saved ∨ after.saved = after.seen) ∧
      (outcome = .ok () → policy.validate = .ok () ∧ after.saved.digests.lookup policy.guardKey = some (Sha256.sum256 message) ∧
        after.saved = after.seen) := by
  rw [DoubleSignGuard.checkAndRemember] at done
  split at done
  · cases done
    exact ⟨fun _ _ present => present, .inl rfl, fun failed => by cases failed⟩
  · rename_i checked
    have inserted (fresh : ¬ (guard.seen.digests.lookup policy.guardKey).any (fun previous => previous ≠ Sha256.sum256 message)) :
        Kept guard.seen (guard.seen.insert policy.guardKey (Sha256.sum256 message) (SignPolicy.guard_key_valid checked)) := by
      intro key digest present
      by_cases same : key = policy.guardKey
      · cases same
        rw [present, Option.any_some, decide_eq_true_eq, not_not] at fresh
        rw [Records.insert, lookup_insert, fresh]
      · rw [Records.insert, lookup_insert_ne same, present]
    dsimp only at done
    split_ifs at done with conflict
    · cases done
      exact ⟨fun _ _ present => present, .inl rfl, fun failed => by cases failed⟩
    · cases done
      exact ⟨inserted conflict, .inr rfl, fun _ => ⟨checked, lookup_insert _, rfl⟩⟩
    · cases done
      exact ⟨inserted conflict, .inl rfl, fun failed => by cases failed⟩

-- What one request does to the guard, and what is on disk when a signature is returned.
structure Served (service next : RemoteSignerService) (request : Request) (outcome : Except SignerErr Signature) : Prop where
  policy : next.policy = service.policy
  kept : Kept service.guard.seen next.guard.seen
  saved : next.guard.saved = service.guard.saved ∨ next.guard.saved = next.guard.seen
  signed : ∀ signature, outcome = .ok signature → ∃ payload policy message, request.payload = some payload ∧ payload.policy = some policy ∧
    Base64.decodeStd payload.message = some message ∧ policy.validate = .ok () ∧ next.guard.saved = next.guard.seen ∧
    next.guard.saved.digests.lookup policy.guardKey = some (Sha256.sum256 message)

variable {request : Request} {outcome : Except SignerErr Signature}

theorem served_refused {reason : SignerErr} (policy : next.policy = service.policy) (guard : next.guard = service.guard) :
    Served service next request (.error reason) :=
  ⟨policy, by rw [guard]; exact fun _ _ present => present, .inl (by rw [guard]), fun signature failed => by cases failed⟩

theorem seen_nonce_keeps {nonce : GoString} {renamed : Bool} {outcome : Except SignerErr Unit}
    (done : seenNonce service nonce renamed = (outcome, next)) : next.policy = service.policy ∧ next.guard = service.guard := by
  rw [seenNonce] at done
  split_ifs at done <;> cases done <;> exact ⟨rfl, rfl⟩

theorem checked_message_ok {payload : RemoteSignRequest} (strict : service.policy.requirePolicy = true)
    (checked : checkedMessage service payload = .ok message) :
    Base64.decodeStd payload.message = some message ∧ ∃ policy, payload.policy = some policy := by
  simp only [checkedMessage, ok_iff] at checked
  obtain ⟨_, -, -, decoded, read, _, valid, same⟩ := checked
  cases same
  rw [decodeBase64] at read
  split at read
  · cases read
    refine ⟨by assumption, ?_⟩
    cases stated : payload.policy with
    | some policy => exact ⟨policy, rfl⟩
    | none =>
      rw [stated, RemoteSignerPolicy.validate, require_ok_iff, strict] at valid
      exact absurd rfl valid
  · cases read

theorem serve_cases {renames : Renames} (strict : service.policy.requirePolicy = true) (done : serveHTTP service request renames = (outcome, next)) :
    Served service next request outcome := by
  rw [serveHTTP] at done
  split_ifs at done with method authorized
  · cases done
    exact served_refused rfl rfl
  · cases done
    exact served_refused rfl rfl
  split at done
  · cases done
    exact served_refused rfl rfl
  · next payload decoded =>
    cases nonce : seenNonce service payload.nonce renames.nonces with
    | mk fresh counted =>
      obtain ⟨samePolicy, sameGuard⟩ := seen_nonce_keeps nonce
      rw [nonce] at done
      cases fresh with
      | error reason =>
        cases done
        exact served_refused samePolicy sameGuard
      | ok =>
        dsimp only at done
        cases checked : checkedMessage counted payload with
        | error reason =>
          rw [checked] at done
          cases done
          exact served_refused samePolicy sameGuard
        | ok message =>
          rw [← samePolicy] at strict
          obtain ⟨read, policy, stated⟩ := checked_message_ok strict checked
          simp only [checked, stated, guarded] at done
          cases remembered : counted.guard.checkAndRemember policy message renames.records with
          | mk allowed after =>
            rw [remembered] at done
            obtain ⟨kept, saved, recorded⟩ := check_cases remembered
            rw [sameGuard] at kept saved
            cases allowed with
            | error reason =>
              cases done
              exact ⟨samePolicy, kept, saved, fun signature failed => by cases failed⟩
            | ok =>
              cases done
              obtain ⟨valid, onDisk, same⟩ := recorded rfl
              exact ⟨samePolicy, kept, saved, fun signature _ => ⟨payload, policy, message, decoded, stated, read, valid, same, onDisk⟩⟩

structure Guarded (hashed : Set Bytes) (system : System) : Prop where
  strict : system.service.policy.requirePolicy = true
  loaded : Kept system.service.guard.saved system.service.guard.seen
  recorded : ∀ message ∈ system.signed, message ∈ hashed ∧ ∃ policy : SignPolicy, policy.validate = .ok () ∧
    Describes chainOf policy message ∧ system.service.guard.saved.digests.lookup policy.guardKey = some (Sha256.sum256 message)

variable {chainOf : Bytes → GoString} {hashed : Set Bytes} {system : System} {event : Event} {last : System}

theorem served_guarded (holds : Guarded chainOf hashed system)
    (served : Served system.service next request outcome) : Guarded chainOf hashed ⟨next, system.signed⟩ := by
  have grows : Kept system.service.guard.saved next.guard.saved := by
    rcases served.saved with same | same
    · rw [same]
      exact fun _ _ present => present
    · rw [same]
      exact fun key digest present => served.kept key digest (holds.loaded key digest present)
  refine ⟨by rw [served.policy]; exact holds.strict, ?_, fun message listed => ?_⟩
  · rcases served.saved with same | same
    · rw [same]
      exact fun key digest present => served.kept key digest (holds.loaded key digest present)
    · rw [same]
      exact fun _ _ present => present
  · obtain ⟨inside, policy, valid, describes, stored⟩ := holds.recorded message listed
    exact ⟨inside, policy, valid, describes, grows _ _ stored⟩

theorem step_guarded (truthful : Truthful chainOf hashed system event) (step : Step system event last) (holds : Guarded chainOf hashed system) :
    Guarded chainOf hashed last := by
  cases step with
  | refused done => exact served_guarded holds (serve_cases holds.strict done)
  | restarted => exact ⟨holds.strict, fun _ _ present => present, holds.recorded⟩
  | @signed request renames signature next message done read =>
    have served := serve_cases holds.strict done
    have kept := served_guarded holds served
    obtain ⟨payload, policy, own, payloadRead, stated, decoded, valid, -, onDisk⟩ := served.signed signature rfl
    have same : own = message := by
      rw [Request.message, payloadRead, Option.bind_some, decoded] at read
      exact Option.some.inj read
    cases same
    obtain ⟨inside, describes⟩ := truthful message read
    refine ⟨kept.strict, kept.loaded, fun message listed => ?_⟩
    rcases mem_cons.mp listed with rfl | listed
    · exact ⟨inside, policy, valid, describes policy (by rw [payloadRead, Option.bind_some, stated]), onDisk⟩
    · exact kept.recorded message listed

variable {type : SignType}

theorem described_key {first second : SignPolicy} (firstValid : first.validate = .ok ()) (secondValid : second.validate = .ok ())
    (firstType : first.type = SignType.text type) (secondType : second.type = SignType.text type) (height : first.height = second.height)
    (round : first.round = second.round) (chain : first.chainID = second.chainID) : first.guardKey = second.guardKey := by
  have injective : ∀ left right : SignType, SignType.text left = SignType.text right → left = right := by
    intro left right same
    cases left <;> cases right <;> first | rfl | exact absurd same (by with_unfolding_all decide)
  obtain ⟨own, ownText, ownDomain⟩ := SignPolicy.validate_ok firstValid
  obtain ⟨other, otherText, otherDomain⟩ := SignPolicy.validate_ok secondValid
  cases injective _ _ (ownText.symm.trans firstType)
  cases injective _ _ (otherText.symm.trans secondType)
  rw [SignPolicy.guardKey, SignPolicy.guardKey, chain, height, round, ownText, otherText, ownDomain, otherDomain]

theorem never_signs_twice {started : RemoteSignerService} {events : List Event} (chainOf : Bytes → GoString) {hashed : Set Bytes}
    (free : Sha256.CollisionFree hashed) (strict : started.policy.requirePolicy = true) (fresh : started.guard.seen = started.guard.saved)
    (run : Transitions.Run Step (Truthful chainOf hashed) ⟨started, []⟩ events last) {first second : Bytes} (firstSigned : first ∈ last.signed)
    (secondSigned : second ∈ last.signed) {type : SignType} {height : Height} {round : Round} (firstOf : MessageOf type height round first)
    (secondOf : MessageOf type height round second) (chain : chainOf first = chainOf second) : first = second := by
  have start : Guarded chainOf hashed ⟨started, []⟩ :=
    ⟨strict, by rw [fresh]; exact fun _ _ present => present, fun message listed => by cases listed⟩
  have guarded : Guarded chainOf hashed last := run.invariant (fun truthful step holds => step_guarded truthful step holds) start
  obtain ⟨firstInside, policy, valid, describes, stored⟩ := guarded.recorded first firstSigned
  obtain ⟨secondInside, other, otherValid, otherDescribes, otherStored⟩ := guarded.recorded second secondSigned
  obtain ⟨typed, atHeight, atRound, onChain⟩ := describes _ _ _ firstOf
  obtain ⟨otherTyped, otherHeight, otherRound, otherChain⟩ := otherDescribes _ _ _ secondOf
  have key := described_key valid otherValid typed otherTyped (atHeight.trans otherHeight.symm) (atRound.trans otherRound.symm)
    (onChain.trans (chain.trans otherChain.symm))
  rw [← key, stored] at otherStored
  exact free first firstInside second secondInside (Option.some.inj otherStored)

-- A message starts with its domain, and the three domains differ in one place.
theorem domain_message_mark {domain : GoString} {inner message : Bytes} (encoded : Crypto.domainMessage domain inner = .ok message)
    (long : 15 < domain.length) : message[27]? = domain[15]? := by
  rw [Crypto.domainMessage, if_neg (by rintro rfl; exact absurd long (by decide))] at encoded
  cases encoded
  have start : (utf8 "VEXO-DOMAIN" ++ [0]).length = 12 := by with_unfolding_all decide
  rw [show utf8 "VEXO-DOMAIN" ++ 0 :: domain ++ putUint64 (UInt64.ofNat inner.length) ++ inner =
    (utf8 "VEXO-DOMAIN" ++ [0]) ++ (domain ++ (putUint64 (UInt64.ofNat inner.length) ++ inner)) from by simp [append_assoc],
    getElem?_append_right (by omega), start, getElem?_append_left long]

theorem MessageOf.encoded {height : Height} {round : Round} {message : Bytes} (made : MessageOf type height round message) :
    ∃ kind rest, Crypto.domainMessage type.domain (kind ++ (putUint64 height ++ (putUint64 round ++ rest))) = .ok message ∧
      kind = (if type = .consensusProposal then utf8 "proposal" else if type = .consensusVote then utf8 "vote" else utf8 "timeout_vote") ∧
      15 < type.domain.length := by
  cases made with
  | @proposal proposal message encoded =>
    refine ⟨utf8 "proposal", proposal.proposer ++ ((hashBlock proposal.block).bytes ++ appendQuorumCert proposal.justifyQC), ?_, rfl,
      by with_unfolding_all decide⟩
    simpa only [SignType.domain, proposalSignBytes, append_assoc] using encoded
  | vote encoded => exact ⟨utf8 "vote", _, encoded, rfl, by with_unfolding_all decide⟩
  | @timeoutVote vote message encoded =>
    refine ⟨utf8 "timeout_vote", appendQuorumCert vote.highQC, ?_, rfl, by with_unfolding_all decide⟩
    simpa only [SignType.domain, timeoutVoteSignBytes, append_assoc] using encoded

theorem message_of_unique {other : SignType} {height otherHeight : Height} {round otherRound : Round}
    (made : MessageOf type height round message) (again : MessageOf other otherHeight otherRound message) :
    type = other ∧ height = otherHeight ∧ round = otherRound := by
  obtain ⟨kind, rest, encoded, kindOf, long⟩ := made.encoded
  obtain ⟨kind', rest', encoded', kindOf', long'⟩ := again.encoded
  have marks : type.domain[15]? = other.domain[15]? := by
    rw [← domain_message_mark encoded long, domain_message_mark encoded' long']
  have same : type = other := by
    cases made <;> cases again <;> first | rfl | exact absurd marks (by with_unfolding_all decide)
  cases same
  cases kindOf.trans kindOf'.symm
  have inner := Crypto.domain_message_injective encoded encoded'
  obtain ⟨-, inner⟩ := append_inj inner rfl
  obtain ⟨heights, inner⟩ := append_inj inner (by simp)
  obtain ⟨rounds, -⟩ := append_inj inner (by simp)
  exact ⟨rfl, put_uint64_injective _ _ heights, put_uint64_injective _ _ rounds⟩

def vexoSigner : RemoteSignerService :=
  let none : Records := ⟨∅, fun key digest present => by cases present⟩
  ⟨[1], .ok, ⟨utf8 "vexo", 0, 0, [], true, []⟩, ⟨none, none⟩, ⟨[], [], true⟩⟩

variable (filler : UInt8)

def firstVote : Consensus.Vote := ⟨1, 0, ⟨List.replicate 32 filler, filled_length filler⟩, [], []⟩

def voteMessage : Bytes :=
  (Crypto.domainMessage Crypto.domainConsensusVote (Consensus.voteSignBytes (firstVote filler))).toOption.getD []

theorem vote_message_of : MessageOf .consensusVote 1 0 (voteMessage filler) := by
  obtain ⟨message, encoded⟩ := Crypto.domain_message_ok (voteSignBytes (firstVote filler))
    (show Crypto.domainConsensusVote ≠ [] by with_unfolding_all decide)
  rw [voteMessage, encoded]
  exact .vote encoded

theorem vexo_valid : Utf8.Valid (utf8 "vexo") := by
  have plain : ((utf8 "vexo").all fun byte => byte < 128) = true := by with_unfolding_all decide
  exact Utf8.valid_ascii plain

def statedVote (height : Height) (filler : UInt8) : Request :=
  ⟨utf8 "POST", [], some ⟨Base64.encodeStd [1], Base64.encodeStd (voteMessage filler),
    some ⟨utf8 "vexo", height, 0, utf8 "consensus_vote", Crypto.domainConsensusVote, vexo_valid⟩, []⟩⟩

def signsBoth (first second : Request) : Bool :=
  let served := serveHTTP vexoSigner first ⟨true, true⟩
  let again := serveHTTP (restart served.2) second ⟨true, true⟩
  served.1.isOk && again.1.isOk

theorem signs_evaluated : signsBoth (statedVote 1 0) (statedVote 2 1) = true ∧ signsBoth (statedVote 1 0) (statedVote 1 0) = true ∧
      (statedVote 1 0).message = some (voteMessage 0) ∧ (statedVote 2 1).message = some (voteMessage 1) ∧ voteMessage 0 ≠ voteMessage 1 := by
  decide +kernel

theorem both_run {Allowed : System → Event → Prop} {first second : Request} {firstMessage secondMessage : Bytes}
    (signs : signsBoth first second = true) (firstRead : first.message = some firstMessage) (secondRead : second.message = some secondMessage)
    (allowed : ∀ system event, event = .request first ⟨true, true⟩ ∨ event = .restart ∨ event = .request second ⟨true, true⟩ → Allowed system event) :
    ∃ last, Transitions.Run Step Allowed ⟨vexoSigner, []⟩ [.request first ⟨true, true⟩, .restart, .request second ⟨true, true⟩] last ∧
      last.signed = [secondMessage, firstMessage] := by
  obtain ⟨firstSigned, secondSigned⟩ := Bool.and_eq_true_iff.mp signs
  obtain ⟨signature, served⟩ := exists_of_is_ok firstSigned
  obtain ⟨again, servedAgain⟩ := exists_of_is_ok secondSigned
  refine ⟨_, .step (allowed _ _ (.inl rfl)) (.signed (Prod.ext served rfl) firstRead)
    (.step (allowed _ _ (.inr (.inl rfl))) .restarted
      (.step (allowed _ _ (.inr (.inr rfl))) (.signed (Prod.ext servedAgain rfl) secondRead) (.stop _))), rfl⟩

-- Two votes for one height and round are signed when the second is stated to be of another height.
theorem signed_under_other_height : ∃ last first second, Transitions.Run Step (fun _ _ => True) ⟨vexoSigner, []⟩
        [.request (statedVote 1 0) ⟨true, true⟩, .restart, .request (statedVote 2 1) ⟨true, true⟩] last ∧
      vexoSigner.policy.requirePolicy = true ∧ first ∈ last.signed ∧ second ∈ last.signed ∧ MessageOf .consensusVote 1 0 first ∧
      MessageOf .consensusVote 1 0 second ∧ first ≠ second := by
  obtain ⟨signs, -, firstRead, secondRead, different⟩ := signs_evaluated
  obtain ⟨last, run, signed⟩ := @both_run (fun _ _ => True) _ _ _ _ signs firstRead secondRead fun _ _ _ => trivial
  refine ⟨last, voteMessage 0, voteMessage 1, run, rfl, ?_, ?_, vote_message_of 0, vote_message_of 1, different⟩
  · rw [signed]
    exact mem_cons_of_mem _ mem_cons_self
  · rw [signed]
    exact mem_cons_self ..

theorem signed_again_after_restart : ∃ last, Transitions.Run Step (Truthful (fun _ => utf8 "vexo") {voteMessage 0}) ⟨vexoSigner, []⟩
        [.request (statedVote 1 0) ⟨true, true⟩, .restart, .request (statedVote 1 0) ⟨true, true⟩] last ∧
      last.signed ≠ [] ∧ ∀ second ∈ last.signed, MessageOf .consensusVote 1 0 second → voteMessage 0 = second := by
  obtain ⟨-, signs, read, -, -⟩ := signs_evaluated
  have truthful : ∀ system event, event = .request (statedVote 1 0) ⟨true, true⟩ ∨ event = .restart ∨ event = .request (statedVote 1 0) ⟨true, true⟩ →
      Truthful (fun _ => utf8 "vexo") {voteMessage 0} system event := by
    have asked (system : System) : Truthful (fun _ => utf8 "vexo") {voteMessage 0} system (.request (statedVote 1 0) ⟨true, true⟩) := by
      intro message own
      cases read.symm.trans own
      refine ⟨rfl, fun policy stated type height round made => ?_⟩
      cases stated
      obtain ⟨rfl, rfl, rfl⟩ := message_of_unique (vote_message_of 0) made
      exact ⟨rfl, rfl, rfl, rfl⟩
    rintro system event (rfl | rfl | rfl)
    · exact asked system
    · trivial
    · exact asked system
  obtain ⟨last, run, signed⟩ := both_run signs read read truthful
  refine ⟨last, run, by rw [signed]; exact cons_ne_nil _ _, fun second listed made => ?_⟩
  have free : Sha256.CollisionFree {voteMessage 0} := by
    rintro first rfl second rfl -
    rfl
  exact never_signs_twice (fun _ => utf8 "vexo") free rfl rfl run (by rw [signed]; exact mem_cons_self ..) listed (vote_message_of 0) made rfl

end Runs

end Vexo.RemoteSigner

import VexoConsensus.Lib.Checks
import VexoConsensus.Lib.Float64
import VexoConsensus.Lib.OrderedMap
import VexoConsensus.Types

namespace Vexo.Slashing

open ByteCodec Checks OrderedMap AList

def evidenceTypes : List GoString :=
  [utf8 "double_sign", utf8 "conflicting_vote", utf8 "conflicting_timeout_vote", utf8 "invalid_proposal", utf8 "unavailable_data",
    utf8 "finality_conflict"]

-- The source's type is a string with six constants.
inductive EvidenceType where
  | doubleSign | conflictingVote | conflictingTimeoutVote | invalidProposal | unavailableData | finalityConflict
  | other (name : GoString) (unlisted : name ∉ evidenceTypes)
deriving DecidableEq

def EvidenceType.name : EvidenceType → GoString
  | .doubleSign => utf8 "double_sign"
  | .conflictingVote => utf8 "conflicting_vote"
  | .conflictingTimeoutVote => utf8 "conflicting_timeout_vote"
  | .invalidProposal => utf8 "invalid_proposal"
  | .unavailableData => utf8 "unavailable_data"
  | .finalityConflict => utf8 "finality_conflict"
  | .other name _ => name

def EvidenceType.ofName (name : GoString) : EvidenceType :=
  if listed : name ∈ evidenceTypes then
    if name = utf8 "double_sign" then .doubleSign
    else if name = utf8 "conflicting_vote" then .conflictingVote
    else if name = utf8 "conflicting_timeout_vote" then .conflictingTimeoutVote
    else if name = utf8 "invalid_proposal" then .invalidProposal
    else if name = utf8 "unavailable_data" then .unavailableData
    else .finalityConflict
  else .other name listed

structure Evidence where
  type : EvidenceType
  validator : ValidatorID
  height : Height
  round : Round
  proof : Bytes
deriving DecidableEq

inductive EvidenceStatus where
  | submitted | applied | appealed | expired
deriving DecidableEq

structure Penalty where
  slashFraction : GoString
  jailDuration : UInt64
deriving DecidableEq

structure LifecyclePolicy where
  (evidenceMaxAge appealWindow unbondingDelay : Height)
deriving DecidableEq

structure PenaltyReceipt where
  evidence : Evidence
  penalty : Penalty
  (previousPower remainingPower : VotingPower)
deriving DecidableEq

abbrev PenaltyPolicy := Table EvidenceType Penalty

def defaultPenaltyPolicy : PenaltyPolicy :=
  [(EvidenceType.doubleSign, Penalty.mk (utf8 "0.05") 1209600), (.conflictingVote, ⟨utf8 "0.05", 1209600⟩),
    (.conflictingTimeoutVote, ⟨utf8 "0.05", 1209600⟩), (.invalidProposal, ⟨utf8 "0.01", 86400⟩),
    (.unavailableData, ⟨utf8 "0.02", 604800⟩), (.finalityConflict, ⟨utf8 "0.05", 1209600⟩)].foldl
    (fun policy (type, penalty) => policy.insert type penalty) ∅

def defaultLifecyclePolicy : LifecyclePolicy := ⟨1209600, 100, 1209600⟩

def normalizeLifecyclePolicy (policy : LifecyclePolicy) : LifecyclePolicy where
  evidenceMaxAge := if policy.evidenceMaxAge = 0 then defaultLifecyclePolicy.evidenceMaxAge else policy.evidenceMaxAge
  appealWindow := if policy.appealWindow = 0 then defaultLifecyclePolicy.appealWindow else policy.appealWindow
  unbondingDelay := if policy.unbondingDelay = 0 then defaultLifecyclePolicy.unbondingDelay else policy.unbondingDelay

def evidenceKey (evidence : Evidence) : GoString :=
  evidence.type.name ++ 124 :: evidence.validator ++ 124 :: Decimal.format evidence.height.toNat ++ 124 :: Decimal.format evidence.round.toNat

def applySlash (power : VotingPower) (penalty : Penalty) : Except Err VotingPower :=
  match Float64.parseFloat penalty.slashFraction with
  | none => .error .invalidSlashFraction
  | some fraction =>
    if (fraction.negative ∧ fraction.double ≠ 0) ∨ fraction.double > Float64.one then .error .invalidSlashFraction
    else
      let remaining := Float64.mul (Float64.ofNat power.toNat) (Float64.sub Float64.one fraction.double)
      if remaining < Float64.one ∧ power > 0 ∧ fraction.double < Float64.one then .ok 1
      else .ok (UInt64.ofNat (Float64.truncate remaining))

structure InMemoryKeeper where
  policy : PenaltyPolicy
  lifecyclePolicy : LifecyclePolicy
  evidence : Table GoString Evidence
  evidenceStatus : Table GoString EvidenceStatus
  evidenceExpires : Table GoString Height
  penalties : Table GoString PenaltyReceipt
  (jails unbonding : Table ValidatorID Height)

def newInMemoryKeeperWithLifecycle (policy : Option PenaltyPolicy) (lifecyclePolicy : LifecyclePolicy) : InMemoryKeeper :=
  ⟨policy.getD defaultPenaltyPolicy, normalizeLifecyclePolicy lifecyclePolicy, ∅, ∅, ∅, ∅, ∅, ∅⟩

def newInMemoryKeeper (policy : Option PenaltyPolicy) : InMemoryKeeper := newInMemoryKeeperWithLifecycle policy defaultLifecyclePolicy

namespace InMemoryKeeper

variable (keeper : InMemoryKeeper)
variable (evidence : Evidence) (ctx : Context)

def validateEvidence (evidence : Evidence) : Except Err Unit := do
  require (ctx.done = false) .contextDone
  require (evidence.validator ≠ []) .missingValidator
  require (evidence.height ≠ 0) .missingHeight
  require (evidence.proof ≠ []) .emptyProof
  require ((keeper.policy.lookup evidence.type).isSome) .unknownEvidenceType

def submitEvidence (evidence : Evidence) : Except Err InMemoryKeeper := do
  require (ctx.done = false) .contextDone
  keeper.validateEvidence ctx evidence
  let key := evidenceKey evidence
  require ((keeper.evidence.lookup key).isNone) .duplicateEvidence
  return { keeper with
    evidence := keeper.evidence.insert key evidence
    evidenceStatus := keeper.evidenceStatus.insert key .submitted
    evidenceExpires :=
      if keeper.lifecyclePolicy.evidenceMaxAge > 0 then
        keeper.evidenceExpires.insert key (evidence.height + keeper.lifecyclePolicy.evidenceMaxAge)
      else keeper.evidenceExpires }

def applyPenalty (evidence : Evidence) : Except Err Penalty := do
  require (ctx.done = false) .contextDone
  keeper.validateEvidence ctx evidence
  match keeper.policy.lookup evidence.type with
  | none => .error .penaltyNotConfigured
  | some penalty => return penalty

-- What both branches of ApplyPenaltyWithStake leave behind for the penalty.
def marked (penalty : Penalty) : InMemoryKeeper :=
  { keeper with
    evidenceStatus := keeper.evidenceStatus.insert (evidenceKey evidence) .applied
    jails := if penalty.jailDuration > 0 then keeper.jails.insert evidence.validator (evidence.height + penalty.jailDuration)
      else keeper.jails
    unbonding := if keeper.lifecyclePolicy.unbondingDelay > 0 then
        keeper.unbonding.insert evidence.validator (evidence.height + keeper.lifecyclePolicy.unbondingDelay)
      else keeper.unbonding }

def checkLifecycle : Except Err Unit := do
  let key := evidenceKey evidence
  require (keeper.evidenceStatus.lookup key ≠ some .expired) .evidenceExpired
  require (keeper.evidenceStatus.lookup key ≠ some .appealed) .evidenceAppealed
  let expiresAt := (keeper.evidenceExpires.lookup key).getD 0
  require (¬ (expiresAt ≠ 0 ∧ evidence.height ≥ expiresAt)) .evidenceExpired

def applyPenaltyWithStake (evidence : Evidence) (currentPower : VotingPower) : Except Err (PenaltyReceipt × InMemoryKeeper) :=
  match keeper.penalties.lookup (evidenceKey evidence) with
  | some receipt => .ok (receipt, keeper.marked evidence receipt.penalty)
  | none => do
      keeper.checkLifecycle evidence
      let penalty ← keeper.applyPenalty ctx evidence
      let remaining ← applySlash currentPower penalty
      let receipt : PenaltyReceipt := ⟨evidence, penalty, currentPower, remaining⟩
      let keeper := { keeper with penalties := keeper.penalties.insert (evidenceKey evidence) receipt }
      return (receipt, keeper.marked evidence penalty)

def penaltyReceipt : Option PenaltyReceipt := keeper.penalties.lookup (evidenceKey evidence)

def submitWithExpiration (evidence : Evidence) (expiresAt : Height) : Except Err InMemoryKeeper := do
  require (¬ (expiresAt ≠ 0 ∧ evidence.height ≥ expiresAt)) .evidenceExpired
  let keeper ← keeper.submitEvidence ctx evidence
  return if expiresAt ≠ 0 then { keeper with evidenceExpires := keeper.evidenceExpires.insert (evidenceKey evidence) expiresAt } else keeper

-- Each visited key only alters its own status, so the order of the visit does not show.
def expireEvidence (currentHeight : Height) : InMemoryKeeper × UInt64 :=
  let due := keeper.evidenceExpires.entries.filter fun entry =>
    ¬ (entry.2 = 0 ∨ currentHeight < entry.2) ∧ keeper.evidenceStatus.lookup entry.1 ≠ some .applied
  ({ keeper with evidenceStatus := due.foldl (fun statuses entry => statuses.insert entry.1 .expired) keeper.evidenceStatus },
    UInt64.ofNat due.length)

def appealEvidence : InMemoryKeeper × Bool :=
  let key := evidenceKey evidence
  if (keeper.evidence.lookup key).isNone then (keeper, false)
  else if keeper.evidenceStatus.lookup key = some .applied then (keeper, false)
  else ({ keeper with evidenceStatus := keeper.evidenceStatus.insert key .appealed }, true)

def evidenceLifecycle : Option EvidenceStatus := keeper.evidenceStatus.lookup (evidenceKey evidence)

variable (validator : ValidatorID)

def jailUntil : Option Height := keeper.jails.lookup validator

def isJailed (currentHeight : Height) : Bool := (keeper.jailUntil validator).any fun height => currentHeight < height

def unbondingReleaseHeight : Option Height := keeper.unbonding.lookup validator

end InMemoryKeeper

example : applySlash 100 ⟨utf8 "0.05", 0⟩ = .ok 95 ∧ applySlash 1 ⟨utf8 "0.05", 0⟩ = .ok 1 := by decide +kernel

structure EvidenceDocument where
  evidence : Evidence
  status : EvidenceStatus
  expiresAt : Height
deriving DecidableEq

-- Documents are JSON, so the texts read back from them are UTF-8.
def Evidence.written (evidence : Evidence) : Evidence :=
  { evidence with type := .ofName (Utf8.toValid evidence.type.name), validator := Utf8.toValid evidence.validator }

def EvidenceDocument.written (document : EvidenceDocument) : EvidenceDocument := { document with evidence := document.evidence.written }

def PenaltyReceipt.written (receipt : PenaltyReceipt) : PenaltyReceipt :=
  { receipt with
    evidence := receipt.evidence.written
    penalty := { receipt.penalty with slashFraction := Utf8.toValid receipt.penalty.slashFraction } }

-- The four families of keys have prefixes of their own, so they are kept as tables; a jail or unbonding document is read for its height only.
structure StoreKeeper where
  policy : PenaltyPolicy
  lifecyclePolicy : LifecyclePolicy
  documents : Table GoString EvidenceDocument
  penalties : Table GoString PenaltyReceipt
  (jails unbonding : Table ValidatorID Height)

-- NewStoreKeeperWithLifecycle on an empty store.
def newStoreKeeperWithLifecycle (policy : Option PenaltyPolicy) (lifecyclePolicy : LifecyclePolicy) : StoreKeeper :=
  ⟨policy.getD defaultPenaltyPolicy, normalizeLifecyclePolicy lifecyclePolicy, ∅, ∅, ∅, ∅⟩

namespace StoreKeeper

variable (keeper : StoreKeeper)
variable (ctx : Context) (evidence : Evidence)

def loadEvidence : Except Err EvidenceDocument := do
  require (ctx.done = false) .contextDone
  match keeper.documents.lookup (evidenceKey evidence) with
  | none => .error .keyNotFound
  | some document => return document

def saveEvidence (document : EvidenceDocument) : Except Err StoreKeeper := do
  require (ctx.done = false) .contextDone
  return { keeper with documents := keeper.documents.insert (evidenceKey document.evidence) document.written }

def validateEvidence : Except Err Unit := do
  require (ctx.done = false) .contextDone
  require (evidence.validator ≠ []) .missingValidator
  require (evidence.height ≠ 0) .missingHeight
  require (evidence.proof ≠ []) .emptyProof
  require ((keeper.policy.lookup evidence.type).isSome) .unknownEvidenceType

def submitEvidence : Except Err StoreKeeper := do
  keeper.validateEvidence ctx evidence
  match keeper.loadEvidence ctx evidence with
  | .ok _ => .error .duplicateEvidence
  | .error .keyNotFound =>
    keeper.saveEvidence ctx ⟨evidence, .submitted,
      if keeper.lifecyclePolicy.evidenceMaxAge > 0 then evidence.height + keeper.lifecyclePolicy.evidenceMaxAge else 0⟩
  | .error reason => .error reason

def submitWithExpiration (expiresAt : Height) : Except Err StoreKeeper := do
  require (¬ (expiresAt ≠ 0 ∧ evidence.height ≥ expiresAt)) .evidenceExpired
  let keeper ← keeper.submitEvidence ctx evidence
  let document ← keeper.loadEvidence ctx evidence
  keeper.saveEvidence ctx { document with expiresAt := expiresAt }

def applyPenalty : Except Err Penalty := do
  keeper.validateEvidence ctx evidence
  match keeper.policy.lookup evidence.type with
  | none => .error .penaltyNotConfigured
  | some penalty => return penalty

def penaltyReceipt : Except Err (Option PenaltyReceipt) := do
  require (ctx.done = false) .contextDone
  return keeper.penalties.lookup (evidenceKey evidence)

-- The writes go in one batch; the keys come from the receipt's and the document's own evidence.
def savePenaltyBundle (receipt : PenaltyReceipt) (document : EvidenceDocument) : Except Err StoreKeeper := do
  require (ctx.done = false) .contextDone
  return { keeper with
    penalties := keeper.penalties.insert (evidenceKey receipt.evidence) receipt.written
    documents := keeper.documents.insert (evidenceKey document.evidence) document.written
    jails := if receipt.penalty.jailDuration > 0 then
        keeper.jails.insert receipt.evidence.validator (receipt.evidence.height + receipt.penalty.jailDuration)
      else keeper.jails
    unbonding := if keeper.lifecyclePolicy.unbondingDelay > 0 then
        keeper.unbonding.insert receipt.evidence.validator (receipt.evidence.height + keeper.lifecyclePolicy.unbondingDelay)
      else keeper.unbonding }

def applyPenaltyWithStake (currentPower : VotingPower) : Except Err (PenaltyReceipt × StoreKeeper) := do
  let document ← keeper.loadEvidence ctx evidence
  match ← keeper.penaltyReceipt ctx evidence with
  | some receipt => do
      let keeper ← keeper.savePenaltyBundle ctx receipt { document with status := .applied }
      return (receipt, keeper)
  | none => do
      require (document.status ≠ .expired) .evidenceExpired
      require (document.status ≠ .appealed) .evidenceAppealed
      let penalty ← keeper.applyPenalty ctx evidence
      let remaining ← applySlash currentPower penalty
      let receipt : PenaltyReceipt := ⟨evidence, penalty, currentPower, remaining⟩
      let keeper ← keeper.savePenaltyBundle ctx receipt { document with status := .applied }
      return (receipt, keeper)

def appealEvidence : Except Err (StoreKeeper × Bool) := do
  let document ← keeper.loadEvidence ctx evidence
  if document.status = .applied then return (keeper, false)
  else
    let keeper ← keeper.saveEvidence ctx { document with status := .appealed }
    return (keeper, true)

def expireEvidence (currentHeight : Height) : Except Err (StoreKeeper × Bool) := do
  let document ← keeper.loadEvidence ctx evidence
  if document.expiresAt = 0 ∨ currentHeight < document.expiresAt ∨ document.status = .applied then return (keeper, false)
  else
    let keeper ← keeper.saveEvidence ctx { document with status := .expired }
    return (keeper, true)

def evidenceLifecycle : Option EvidenceStatus :=
  (keeper.documents.lookup (evidenceKey evidence)).map EvidenceDocument.status

variable (validator : ValidatorID)

def jailUntil : Option Height := keeper.jails.lookup validator

def isJailed (currentHeight : Height) : Bool := (keeper.jailUntil validator).any fun height => currentHeight < height

def unbondingReleaseHeight : Option Height := keeper.unbonding.lookup validator

end StoreKeeper

inductive KeeperCall where
  | submit (ctx : Context) (evidence : Evidence)
  | submitWithExpiration (ctx : Context) (evidence : Evidence) (expiresAt : Height)
  | appeal (ctx : Context) (evidence : Evidence)
  | expire (ctx : Context) (currentHeight : Height)
  | apply (ctx : Context) (evidence : Evidence) (currentPower : VotingPower)

inductive Reply where
  | done
  | appealed (accepted : Bool)
  | expired (count : UInt64)
  | penalised (receipt : PenaltyReceipt)
deriving DecidableEq

-- A call that fails leaves the keeper as it was.
def answered {Keeper Value : Type} (keeper : Keeper) (reply : Value → Reply) : Except Err (Keeper × Value) → Keeper × Except Err Reply
  | .ok (next, value) => (next, .ok (reply value))
  | .error reason => (keeper, .error reason)

namespace InMemoryKeeper

def call (keeper : InMemoryKeeper) : KeeperCall → InMemoryKeeper × Except Err Reply
  | .submit ctx evidence => answered keeper (fun _ => .done) ((keeper.submitEvidence ctx evidence).map fun next => (next, ()))
  | .submitWithExpiration ctx evidence expiresAt =>
    answered keeper (fun _ => .done) ((keeper.submitWithExpiration ctx evidence expiresAt).map fun next => (next, ()))
  | .appeal _ evidence => ((keeper.appealEvidence evidence).1, .ok (.appealed (keeper.appealEvidence evidence).2))
  | .expire _ currentHeight => ((keeper.expireEvidence currentHeight).1, .ok (.expired (keeper.expireEvidence currentHeight).2))
  | .apply ctx evidence currentPower => answered keeper .penalised ((keeper.applyPenaltyWithStake ctx evidence currentPower).map Prod.swap)

end InMemoryKeeper

namespace StoreKeeper

-- ExpireEvidence takes one piece of evidence, so expiring what is due means a call for each one stored.
def expireEach (ctx : Context) (currentHeight : Height) : List Evidence → StoreKeeper → UInt64 → Except Err (StoreKeeper × UInt64)
  | [], keeper, count => .ok (keeper, count)
  | evidence :: rest, keeper, count => do
      let (keeper, expired) ← keeper.expireEvidence ctx evidence currentHeight
      expireEach ctx currentHeight rest keeper (if expired then count + 1 else count)

def stored (keeper : StoreKeeper) : List Evidence := keeper.documents.entries.map fun entry => entry.2.evidence

def call (keeper : StoreKeeper) : KeeperCall → StoreKeeper × Except Err Reply
  | .submit ctx evidence => answered keeper (fun _ => .done) ((keeper.submitEvidence ctx evidence).map fun next => (next, ()))
  | .submitWithExpiration ctx evidence expiresAt =>
    answered keeper (fun _ => .done) ((keeper.submitWithExpiration ctx evidence expiresAt).map fun next => (next, ()))
  | .appeal ctx evidence => answered keeper .appealed (keeper.appealEvidence ctx evidence)
  | .expire ctx currentHeight => answered keeper .expired (expireEach ctx currentHeight keeper.stored keeper 0)
  | .apply ctx evidence currentPower => answered keeper .penalised ((keeper.applyPenaltyWithStake ctx evidence currentPower).map Prod.swap)

end StoreKeeper

-- Whom a penalty hits, for an offence at which height, and for how long.
structure Verdict where
  validator : ValidatorID
  height : Height
  jailDuration : UInt64
  unbondingDelay : Height
deriving DecidableEq

-- What the two keepers share as far as jails and unbonding go; the verdict is read off the keeper before the penalty is applied.
structure JailKeeper (State : Type) where
  call : State → KeeperCall → State × Except Err Reply
  verdict : State → Evidence → Option Verdict
  (jailUntil unbondingReleaseHeight : State → ValidatorID → Option Height)

def InMemoryKeeper.verdict (keeper : InMemoryKeeper) (evidence : Evidence) : Option Verdict :=
  (((keeper.penalties.lookup (evidenceKey evidence)).map PenaltyReceipt.penalty).or (keeper.policy.lookup evidence.type)).map fun penalty =>
    ⟨evidence.validator, evidence.height, penalty.jailDuration, keeper.lifecyclePolicy.unbondingDelay⟩

-- A receipt that is already there counts with its own evidence.
def StoreKeeper.verdict (keeper : StoreKeeper) (evidence : Evidence) : Option Verdict :=
  match keeper.penalties.lookup (evidenceKey evidence) with
  | some receipt =>
    some ⟨receipt.evidence.validator, receipt.evidence.height, receipt.penalty.jailDuration, keeper.lifecyclePolicy.unbondingDelay⟩
  | none => (keeper.policy.lookup evidence.type).map fun penalty =>
    ⟨evidence.validator, evidence.height, penalty.jailDuration, keeper.lifecyclePolicy.unbondingDelay⟩

def inMemoryJails : JailKeeper InMemoryKeeper where
  call := InMemoryKeeper.call
  verdict := InMemoryKeeper.verdict
  jailUntil := InMemoryKeeper.jailUntil
  unbondingReleaseHeight := InMemoryKeeper.unbondingReleaseHeight

def storeJails : JailKeeper StoreKeeper where
  call := StoreKeeper.call
  verdict := StoreKeeper.verdict
  jailUntil := StoreKeeper.jailUntil
  unbondingReleaseHeight := StoreKeeper.unbondingReleaseHeight

namespace JailKeeper

variable {State : Type} (keeper : JailKeeper State) (state : State)

def isJailed (validator : ValidatorID) (currentHeight : Height) : Bool :=
  (keeper.jailUntil state validator).any fun height => currentHeight < height

def penalised (call : KeeperCall) : Option Verdict :=
  match call with
  | .apply _ evidence _ => if (keeper.call state call).2.isOk then keeper.verdict state evidence else none
  | _ => none

def after (calls : List KeeperCall) : State := calls.foldl (fun state call => (keeper.call state call).1) state

end JailKeeper

def NotBefore (earlier later : Option Height) : Prop := ∀ height ∈ earlier, ∃ other ∈ later, height ≤ other

section Runs

variable {State : Type} (keeper : JailKeeper State)

structure TermsKept (before : State) (call : KeeperCall) (later : List KeeperCall) (verdict : Verdict) : Prop where
  jail : ∀ validator, NotBefore (keeper.jailUntil before validator) (keeper.jailUntil (keeper.call before call).1 validator)
  unbonding : ∀ validator,
    NotBefore (keeper.unbondingReleaseHeight before validator) (keeper.unbondingReleaseHeight (keeper.call before call).1 validator)
  jailed : verdict.jailDuration > 0 → ∀ height, verdict.height ≤ height → height.toNat < verdict.height.toNat + verdict.jailDuration.toNat →
    keeper.isJailed (keeper.after (keeper.call before call).1 later) verdict.validator height

def NeverShortens (state : State) (calls : List KeeperCall) : Prop :=
  ∀ earlier call later rest verdict, calls = earlier ++ call :: (later ++ rest) → keeper.penalised (keeper.after state earlier) call = some verdict →
    TermsKept keeper (keeper.after state earlier) call later verdict

-- The jail term fits in 64 bits and neither term ends before one that is already running.
structure Lasting (state : State) (verdict : Verdict) : Prop where
  jail : verdict.jailDuration > 0 → verdict.height.toNat + verdict.jailDuration.toNat < 2 ^ 64 ∧
    ∀ height ∈ keeper.jailUntil state verdict.validator, height ≤ verdict.height + verdict.jailDuration
  unbonding : verdict.unbondingDelay > 0 →
    ∀ height ∈ keeper.unbondingReleaseHeight state verdict.validator, height ≤ verdict.height + verdict.unbondingDelay

def AllLasting : State → List KeeperCall → Prop
  | _, [] => True
  | state, call :: rest =>
    (∀ verdict, keeper.penalised state call = some verdict → Lasting keeper state verdict) ∧ AllLasting (keeper.call state call).1 rest

structure LawfulJails : Prop where
  untouched : ∀ {state call}, keeper.penalised state call = none → ∀ validator,
    keeper.jailUntil (keeper.call state call).1 validator = keeper.jailUntil state validator ∧
      keeper.unbondingReleaseHeight (keeper.call state call).1 validator = keeper.unbondingReleaseHeight state validator
  jail : ∀ {state call verdict}, keeper.penalised state call = some verdict → ∀ validator, keeper.jailUntil (keeper.call state call).1 validator =
      if validator = verdict.validator ∧ verdict.jailDuration > 0 then some (verdict.height + verdict.jailDuration)
      else keeper.jailUntil state validator
  unbonding : ∀ {state call verdict}, keeper.penalised state call = some verdict → ∀ validator,
    keeper.unbondingReleaseHeight (keeper.call state call).1 validator =
      if validator = verdict.validator ∧ verdict.unbondingDelay > 0 then some (verdict.height + verdict.unbondingDelay)
      else keeper.unbondingReleaseHeight state validator

end Runs

section Terms

variable {State : Type} {keeper : JailKeeper State} {state : State} {call : KeeperCall} {verdict : Verdict}

theorem not_before_refl (height : Option Height) : NotBefore height height := fun recorded listed => ⟨recorded, listed, UInt64.le_refl _⟩

theorem NotBefore.trans {first second third : Option Height} (left : NotBefore first second) (right : NotBefore second third) :
    NotBefore first third := by
  intro height listed
  obtain ⟨middle, found, within⟩ := left height listed
  obtain ⟨last, reached, beyond⟩ := right middle found
  exact ⟨last, reached, UInt64.le_trans within beyond⟩

variable {recorded : Option Height}

theorem not_before_some {ends : Height} : NotBefore recorded (some ends) ↔ ∀ height ∈ recorded, height ≤ ends := by
  simp [NotBefore]

theorem not_before_term {hit : Prop} [Decidable hit] {ends : Height} (within : hit → ∀ height ∈ recorded, height ≤ ends) :
    NotBefore recorded (if hit then some ends else recorded) := by
  split
  · next struck => exact not_before_some.mpr (within struck)
  · exact not_before_refl _

theorem term_end {height duration : UInt64} (fits : height.toNat + duration.toNat < 2 ^ 64) :
    (height + duration).toNat = height.toNat + duration.toNat := by
  rw [UInt64.toNat_add, Nat.mod_eq_of_lt fits]

variable (lawful : LawfulJails keeper)
include lawful

section

variable (applied : keeper.penalised state call = some verdict)
include applied
variable (lasting : Lasting keeper state verdict)
include lasting
variable (validator : ValidatorID)

theorem jail_not_before :
    NotBefore (keeper.jailUntil state validator) (keeper.jailUntil (keeper.call state call).1 validator) := by
  rw [lawful.jail applied]
  exact not_before_term fun hit => hit.1 ▸ (lasting.jail hit.2).2

theorem unbonding_not_before :
    NotBefore (keeper.unbondingReleaseHeight state validator) (keeper.unbondingReleaseHeight (keeper.call state call).1 validator) := by
  rw [lawful.unbonding applied]
  exact not_before_term fun hit => hit.1 ▸ lasting.unbonding hit.2

end

variable (calls : List KeeperCall)

theorem jail_after_calls (lasting : AllLasting keeper state calls) (validator : ValidatorID) :
    NotBefore (keeper.jailUntil state validator) (keeper.jailUntil (keeper.after state calls) validator) := by
  induction calls generalizing state with
  | nil => exact not_before_refl _
  | cons call rest ih =>
    refine NotBefore.trans ?_ (ih lasting.2)
    cases applied : keeper.penalised state call with
    | none =>
      rw [(lawful.untouched applied validator).1]
      exact not_before_refl _
    | some verdict => exact jail_not_before lawful applied (lasting.1 verdict applied) validator

omit lawful in
theorem all_lasting_append (earlier later : List KeeperCall) :
    AllLasting keeper state (earlier ++ later) ↔ AllLasting keeper state earlier ∧ AllLasting keeper (keeper.after state earlier) later := by
  induction earlier generalizing state with
  | nil => exact (iff_of_eq (true_and _)).symm
  | cons call rest ih =>
    rw [List.cons_append, AllLasting, AllLasting, ih, and_assoc]
    rfl

theorem never_shortens_of_lasting {calls : List KeeperCall} (lasting : AllLasting keeper state calls) : NeverShortens keeper state calls := by
  intro earlier call later rest verdict split applied
  rw [split, all_lasting_append, AllLasting, all_lasting_append] at lasting
  obtain ⟨-, here, onward, -⟩ := lasting
  have lasts := here verdict applied
  refine ⟨jail_not_before lawful applied lasts, unbonding_not_before lawful applied lasts, fun jailing height offence within => ?_⟩
  have sentence := lawful.jail applied verdict.validator
  rw [if_pos ⟨rfl, jailing⟩] at sentence
  obtain ⟨last, recorded, beyond⟩ := jail_after_calls lawful later onward verdict.validator _ sentence
  have ends := term_end (lasts.jail jailing).1
  rw [JailKeeper.isJailed, recorded, Option.any_some, decide_eq_true_eq, UInt64.lt_iff_toNat_lt]
  have reached := UInt64.le_iff_toNat_le.mp beyond
  omega

theorem lasting_of_never_shortens (kept : NeverShortens keeper state calls) : AllLasting keeper state calls := by
  induction calls generalizing state with
  | nil => trivial
  | cons call rest ih =>
    refine ⟨fun verdict applied => ?_, ih fun earlier other later rest' verdict split => ?_⟩
    · obtain ⟨jail, unbonding, jailed⟩ := kept [] call [] rest verdict rfl applied
      constructor
      · intro jailing
        have sentence := lawful.jail applied verdict.validator
        rw [if_pos ⟨rfl, jailing⟩] at sentence
        constructor
        · -- Jailed at the height of the offence, so the end has not wrapped round.
          have now : keeper.isJailed (keeper.call state call).1 verdict.validator verdict.height := by
            refine jailed jailing verdict.height (UInt64.le_refl _) ?_
            have positive := UInt64.lt_iff_toNat_lt.mp jailing
            rw [UInt64.toNat_zero] at positive
            omega
          rw [JailKeeper.isJailed, sentence, Option.any_some, decide_eq_true_eq, UInt64.lt_iff_toNat_lt, UInt64.toNat_add] at now
          have bound := verdict.jailDuration.toNat_lt
          have bound' := verdict.height.toNat_lt
          omega
        · exact not_before_some.mp (sentence ▸ jail verdict.validator)
      · intro delayed
        have release := lawful.unbonding applied verdict.validator
        rw [if_pos ⟨rfl, delayed⟩] at release
        exact not_before_some.mp (release ▸ unbonding verdict.validator)
    · exact kept (call :: earlier) other later rest' verdict (by rw [split, List.cons_append])

end Terms

variable {receipt : PenaltyReceipt} {sentence : Verdict}

section Tables

variable {State Value Kept : Type} {keeper : JailKeeper State} {state : State}

theorem answered_frame (kept : State → Kept) {reply : Value → Reply} {outcome : Except Err (State × Value)}
    (frame : ∀ result, outcome = .ok result → kept result.1 = kept state) : kept (answered state reply outcome).1 = kept state := by
  cases outcome with
  | error reason => rfl
  | ok result => exact frame result rfl

theorem mapped_ok {outcome : Except Err State} {result : State × Unit} (done : (outcome.map fun next => (next, ())) = .ok result) :
    outcome = .ok result.1 := by
  cases outcome with
  | error reason => cases done
  | ok next => exact congrArg (Except.ok ∘ Prod.fst) (Except.ok.inj done)

theorem lookup_term (terms : Table ValidatorID Height) (key validator : ValidatorID) (duration height : Height) :
    (if duration > 0 then terms.insert key height else terms).lookup validator =
      if validator = key ∧ duration > 0 then some height else terms.lookup validator := by
  by_cases lasting : duration > 0
  · by_cases same : validator = key
    · rw [if_pos lasting, if_pos ⟨same, lasting⟩, same, lookup_insert]
    · rw [if_pos lasting, if_neg fun both => same both.1, lookup_insert_ne same]
  · rw [if_neg lasting, if_neg fun both => lasting both.2]

abbrev Terms := Table ValidatorID Height × Table ValidatorID Height

def imposed (terms : Terms) (sentence : Verdict) : Terms :=
  (if sentence.jailDuration > 0 then terms.1.insert sentence.validator (sentence.height + sentence.jailDuration) else terms.1,
    if sentence.unbondingDelay > 0 then terms.2.insert sentence.validator (sentence.height + sentence.unbondingDelay) else terms.2)

-- Both keepers record the terms in two tables that only a penalty writes.
theorem lawful_of_terms (terms : State → Terms) (jailUntil : keeper.jailUntil = fun state validator => (terms state).1.lookup validator)
    (release : keeper.unbondingReleaseHeight = fun state validator => (terms state).2.lookup validator)
    (others : ∀ state call, (∀ ctx evidence power, call ≠ .apply ctx evidence power) → terms (keeper.call state call).1 = terms state)
    (applies : ∀ state ctx evidence power, ∃ outcome : Except Err (PenaltyReceipt × State),
      keeper.call state (.apply ctx evidence power) = answered state .penalised (outcome.map Prod.swap) ∧ ∀ receipt next, outcome = .ok (receipt, next) →
        ∃ sentence, keeper.verdict state evidence = some sentence ∧ terms next = imposed (terms state) sentence) : LawfulJails keeper := by
  have step : ∀ state call, terms (keeper.call state call).1 = (keeper.penalised state call).elim (terms state) (imposed (terms state)) := by
    intro state call
    cases call with
    | apply ctx evidence power =>
      obtain ⟨outcome, answer, judged⟩ := applies state ctx evidence power
      rw [JailKeeper.penalised, answer]
      cases outcome with
      | error reason => rfl
      | ok result =>
        obtain ⟨sentence, verdict, written⟩ := judged _ _ rfl
        rw [verdict]
        exact written
    | submit | submitWithExpiration | appeal | expire => exact others state _ fun _ _ _ same => by cases same
  refine ⟨fun other validator => ?_, fun applied validator => ?_, fun applied validator => ?_⟩
  · simp only [jailUntil, release, step, other, Option.elim_none, and_self]
  · simp only [jailUntil, step, applied, Option.elim_some]
    exact lookup_term ..
  · simp only [release, step, applied, Option.elim_some]
    exact lookup_term ..

end Tables

namespace InMemoryKeeper

variable {keeper next : InMemoryKeeper} {ctx : Context} {evidence : Evidence}

def terms (keeper : InMemoryKeeper) : Terms := (keeper.jails, keeper.unbonding)

theorem apply_verdict {power : VotingPower} (applied : keeper.applyPenaltyWithStake ctx evidence power = .ok (receipt, next)) :
    ∃ sentence, keeper.verdict evidence = some sentence ∧ next.terms = imposed keeper.terms sentence := by
  rw [applyPenaltyWithStake] at applied
  split at applied
  · next known found =>
    cases applied
    exact ⟨_, by rw [verdict, found]; rfl, rfl⟩
  · next found =>
    simp only [bind_ok_iff, pure_ok_iff, Prod.mk.injEq] at applied
    obtain ⟨_, -, penalty, configured, remaining, -, -, rfl⟩ := applied
    refine ⟨⟨evidence.validator, evidence.height, penalty.jailDuration, keeper.lifecyclePolicy.unbondingDelay⟩, ?_, rfl⟩
    simp only [applyPenalty, bind_ok_iff] at configured
    obtain ⟨_, -, _, -, configured⟩ := configured
    split at configured
    · cases configured
    · next known policy =>
      cases configured
      rw [verdict, found, policy]
      rfl

theorem submit_frame (submitted : keeper.submitEvidence ctx evidence = .ok next) : next.terms = keeper.terms := by
  simp only [submitEvidence, bind_ok_iff, pure_ok_iff] at submitted
  obtain ⟨_, -, _, -, _, -, rfl⟩ := submitted
  rfl

theorem submit_until_frame {expiresAt : Height} (submitted : keeper.submitWithExpiration ctx evidence expiresAt = .ok next) :
    next.terms = keeper.terms := by
  simp only [submitWithExpiration, bind_ok_iff, pure_ok_iff] at submitted
  obtain ⟨_, -, middle, first, rfl⟩ := submitted
  have frame := submit_frame first
  split <;> exact frame

theorem call_frame (call : KeeperCall) (other : ∀ ctx evidence power, call ≠ .apply ctx evidence power) :
    (keeper.call call).1.terms = keeper.terms := by
  cases call with
  | submit ctx evidence => exact answered_frame terms fun _ done => submit_frame (mapped_ok done)
  | submitWithExpiration ctx evidence expiresAt => exact answered_frame terms fun _ done => submit_until_frame (mapped_ok done)
  | appeal ctx evidence =>
    simp only [InMemoryKeeper.call, appealEvidence]
    split
    · rfl
    · split <;> rfl
  | expire ctx currentHeight => rfl
  | apply ctx evidence currentPower => exact absurd rfl (other ctx evidence currentPower)

theorem lawful_jails : LawfulJails inMemoryJails :=
  lawful_of_terms terms rfl rfl (fun _ => call_frame) fun _ _ _ _ => ⟨_, rfl, fun _ _ => apply_verdict⟩

end InMemoryKeeper

namespace StoreKeeper

variable {keeper next : StoreKeeper} {ctx : Context} {evidence : Evidence}

def sentenced (keeper : StoreKeeper) (sentence : Verdict) : Table ValidatorID Height × Table ValidatorID Height :=
  (if sentence.jailDuration > 0 then keeper.jails.insert sentence.validator (sentence.height + sentence.jailDuration) else keeper.jails,
    if sentence.unbondingDelay > 0 then keeper.unbonding.insert sentence.validator (sentence.height + sentence.unbondingDelay)
    else keeper.unbonding)

def terms (keeper : StoreKeeper) : Table ValidatorID Height × Table ValidatorID Height := (keeper.jails, keeper.unbonding)

variable {document : EvidenceDocument}

theorem bundle_terms (saved : keeper.savePenaltyBundle ctx receipt document = .ok next) : next.terms = keeper.sentenced
      ⟨receipt.evidence.validator, receipt.evidence.height, receipt.penalty.jailDuration, keeper.lifecyclePolicy.unbondingDelay⟩ := by
  simp only [savePenaltyBundle, bind_ok_iff, pure_ok_iff] at saved
  obtain ⟨_, -, rfl⟩ := saved
  rfl

theorem apply_verdict {power : VotingPower} (applied : keeper.applyPenaltyWithStake ctx evidence power = .ok (receipt, next)) :
    ∃ sentence, keeper.verdict evidence = some sentence ∧ next.terms = keeper.sentenced sentence := by
  simp only [applyPenaltyWithStake, penaltyReceipt, bind_ok_iff, pure_ok_iff] at applied
  obtain ⟨document, -, _, ⟨_, -, rfl⟩, applied⟩ := applied
  cases found : keeper.penalties.lookup (evidenceKey evidence) with
  | some known =>
    simp only [found, bind_ok_iff] at applied
    obtain ⟨_, saved, rfl, rfl⟩ := applied
    exact ⟨_, by rw [verdict, found], bundle_terms saved⟩
  | none =>
    simp only [found, bind_ok_iff] at applied
    obtain ⟨_, -, _, -, penalty, configured, remaining, -, _, saved, -, rfl⟩ := applied
    refine ⟨_, ?_, bundle_terms saved⟩
    simp only [applyPenalty, bind_ok_iff] at configured
    obtain ⟨_, -, configured⟩ := configured
    split at configured
    · cases configured
    · next known policy =>
      cases configured
      rw [verdict, found, policy]
      rfl

theorem save_frame (saved : keeper.saveEvidence ctx document = .ok next) : next.terms = keeper.terms := by
  simp only [saveEvidence, bind_ok_iff, pure_ok_iff] at saved
  obtain ⟨_, -, rfl⟩ := saved
  exact rfl

theorem submit_frame (submitted : keeper.submitEvidence ctx evidence = .ok next) : next.terms = keeper.terms := by
  simp only [submitEvidence, bind_ok_iff] at submitted
  obtain ⟨_, -, submitted⟩ := submitted
  split at submitted
  · cases submitted
  · exact save_frame submitted
  · cases submitted

theorem submit_until_frame {expiresAt : Height} (submitted : keeper.submitWithExpiration ctx evidence expiresAt = .ok next) :
    next.terms = keeper.terms := by
  simp only [submitWithExpiration, bind_ok_iff] at submitted
  obtain ⟨_, -, middle, first, document, -, saved⟩ := submitted
  exact (save_frame saved).trans (submit_frame first)

theorem appeal_frame {accepted : Bool} (appealed : keeper.appealEvidence ctx evidence = .ok (next, accepted)) : next.terms = keeper.terms := by
  simp only [appealEvidence, bind_ok_iff] at appealed
  obtain ⟨document, -, appealed⟩ := appealed
  split at appealed
  · cases appealed
    exact rfl
  · simp only [bind_ok_iff, pure_ok_iff, Prod.mk.injEq] at appealed
    obtain ⟨_, saved, rfl, -⟩ := appealed
    exact save_frame saved

variable {currentHeight : Height}

theorem expire_frame {expired : Bool} (done : keeper.expireEvidence ctx evidence currentHeight = .ok (next, expired)) :
    next.terms = keeper.terms := by
  simp only [expireEvidence, bind_ok_iff] at done
  obtain ⟨document, -, done⟩ := done
  split at done
  · cases done
    exact rfl
  · simp only [bind_ok_iff, pure_ok_iff, Prod.mk.injEq] at done
    obtain ⟨_, saved, rfl, -⟩ := done
    exact save_frame saved

theorem expire_each_frame {listed : List Evidence} {count total : UInt64}
    (done : expireEach ctx currentHeight listed keeper count = .ok (next, total)) : next.terms = keeper.terms := by
  induction listed generalizing keeper count with
  | nil =>
    cases done
    exact rfl
  | cons evidence rest ih =>
    simp only [expireEach, bind_ok_iff] at done
    obtain ⟨⟨middle, expired⟩, first, done⟩ := done
    exact (ih done).trans (expire_frame first)

theorem call_frame (call : KeeperCall) (other : ∀ ctx evidence power, call ≠ .apply ctx evidence power) :
    (keeper.call call).1.terms = keeper.terms := by
  cases call with
  | submit ctx evidence => exact answered_frame terms fun _ done => submit_frame (mapped_ok done)
  | submitWithExpiration ctx evidence expiresAt => exact answered_frame terms fun _ done => submit_until_frame (mapped_ok done)
  | appeal ctx evidence => exact answered_frame terms fun _ done => appeal_frame done
  | expire ctx currentHeight => exact answered_frame terms fun _ done => expire_each_frame done
  | apply ctx evidence currentPower => exact absurd rfl (other ctx evidence currentPower)

theorem lawful_jails : LawfulJails storeJails :=
  lawful_of_terms terms rfl rfl (fun _ => call_frame) fun _ _ _ _ => ⟨_, rfl, fun _ _ => apply_verdict⟩

end StoreKeeper

-- The terms never shorten exactly when each penalty's jail term fits in 64 bits and neither of its terms ends before one already recorded.
theorem never_shortens_iff (policy : Option PenaltyPolicy) (lifecyclePolicy : LifecyclePolicy) (calls : List KeeperCall) :
    (NeverShortens inMemoryJails (newInMemoryKeeperWithLifecycle policy lifecyclePolicy) calls ↔
      AllLasting inMemoryJails (newInMemoryKeeperWithLifecycle policy lifecyclePolicy) calls) ∧
    (NeverShortens storeJails (newStoreKeeperWithLifecycle policy lifecyclePolicy) calls ↔
      AllLasting storeJails (newStoreKeeperWithLifecycle policy lifecyclePolicy) calls) :=
  ⟨⟨lasting_of_never_shortens InMemoryKeeper.lawful_jails calls, never_shortens_of_lasting InMemoryKeeper.lawful_jails⟩,
    ⟨lasting_of_never_shortens StoreKeeper.lawful_jails calls, never_shortens_of_lasting StoreKeeper.lawful_jails⟩⟩

def offence (height : Height) : Evidence := ⟨.conflictingVote, utf8 "alice", height, 0, [1]⟩

def thirtyHeights : PenaltyPolicy := (∅ : PenaltyPolicy).insert .conflictingVote ⟨utf8 "0.05", 30⟩

def punish (height : Height) : List KeeperCall := [.submit .background (offence height), .apply .background (offence height) 100]

def shortensLast {State : Type} (keeper : JailKeeper State) (state : State) (earlier : List KeeperCall) (call : KeeperCall) (validator : ValidatorID) :
    Bool :=
  let before := keeper.after state earlier
  (keeper.penalised before call).isSome && (keeper.jailUntil before validator).any fun height =>
    !(keeper.jailUntil (keeper.call before call).1 validator).any fun other => decide (height ≤ other)

theorem not_kept_of_shortens {State : Type} {keeper : JailKeeper State} {state : State} {earlier : List KeeperCall} {call : KeeperCall}
    {validator : ValidatorID} (shortens : shortensLast keeper state earlier call validator = true) :
    ¬ NeverShortens keeper state (earlier ++ [call]) := by
  intro kept
  simp only [shortensLast, Bool.and_eq_true] at shortens
  obtain ⟨applied, shorter⟩ := shortens
  obtain ⟨verdict, applied⟩ := Option.isSome_iff_exists.mp applied
  cases recorded : keeper.jailUntil (keeper.after state earlier) validator with
  | none =>
    rw [recorded] at shorter
    cases shorter
  | some height =>
    obtain ⟨other, found, within⟩ := (kept earlier call [] [] verdict rfl applied).jail validator height recorded
    rw [recorded, Option.any_some, Option.mem_def.mp found, Option.any_some] at shorter
    simp [within] at shorter

-- Older evidence is applied after newer evidence of the same validator: the jail ends at height 40 instead of 130.
theorem older_offence_shortens :
    ¬ NeverShortens inMemoryJails (newInMemoryKeeperWithLifecycle (some thirtyHeights) defaultLifecyclePolicy) (punish 100 ++ punish 10) ∧
      ¬ NeverShortens storeJails (newStoreKeeperWithLifecycle (some thirtyHeights) defaultLifecyclePolicy) (punish 100 ++ punish 10) := by
  have shortens : shortensLast inMemoryJails (newInMemoryKeeperWithLifecycle (some thirtyHeights) defaultLifecyclePolicy)
        (punish 100 ++ [.submit .background (offence 10)]) (.apply .background (offence 10) 100) (utf8 "alice") = true ∧
      shortensLast storeJails (newStoreKeeperWithLifecycle (some thirtyHeights) defaultLifecyclePolicy)
        (punish 100 ++ [.submit .background (offence 10)]) (.apply .background (offence 10) 100) (utf8 "alice") = true := by
    decide +kernel
  exact ⟨not_kept_of_shortens shortens.1, not_kept_of_shortens shortens.2⟩

end Vexo.Slashing

import Mathlib.Logic.Function.Basic
import VexoConsensus.Finality.Verifier

namespace Vexo.Finality

open Checks WeightedQuorum List

section

structure AccountableSafetyViolation where
  chainID : GoString
  (height validatorSetHeight : Height)
  (validatorSetHash firstBlockHash secondBlockHash firstAppHash secondAppHash : Hash)
  (firstRound secondRound : Round)
  (firstSigners secondSigners doubleSigners : List ValidatorID)
  (doubleSignVotingPower totalVotingPower faultPowerThreshold : VotingPower)
deriving DecidableEq

def AccountableSafetyViolation.meetsFaultThreshold (violation : AccountableSafetyViolation) : Bool :=
  violation.doubleSignVotingPower ≥ violation.faultPowerThreshold ∧ violation.faultPowerThreshold > 0

def faultPowerThreshold (total : VotingPower) : VotingPower :=
  if total = 0 then 0 else if total % 3 ≠ 0 then total / 3 + 1 else total / 3

variable (signers : List ValidatorID)

def sortedSigners : List ValidatorID := signers.insertionSort (· ≤ ·)

def proofBlockHash (proof : Proof) : Hash :=
  if proof.blockHash ≠ zeroHash then proof.blockHash
  else if proof.quorumCert.blockHash ≠ zeroHash then proof.quorumCert.blockHash
  else proof.headerHash

-- The signer loop of overlappingVotingPower: seen, overlapping and power are its loop variables.
def overlapLoop (set : SetSnapshot) (secondSigners : List ValidatorID) : List ValidatorID → List ValidatorID →
    List ValidatorID → VotingPower → Except Err (List ValidatorID × VotingPower)
  | [], _, overlapping, power => .ok (overlapping, power)
  | signer :: rest, seen, overlapping, power =>
    if signer ∈ seen then overlapLoop set secondSigners rest seen overlapping power
    else if signer ∉ secondSigners then overlapLoop set secondSigners rest (signer :: seen) overlapping power
    else
      match set.get signer with
      | none => .error .unknownSigner
      | some validator => do
          let power ← addVotingPower power validator.votingPower
          overlapLoop set secondSigners rest (signer :: seen) (overlapping ++ [signer]) power

def overlappingVotingPower (set : SetSnapshot) (firstSigners secondSigners : List ValidatorID) : Except Err (List ValidatorID × VotingPower) := do
  let (overlapping, power) ← overlapLoop set secondSigners firstSigners [] [] 0
  return (sortedSigners overlapping, power)

variable (validatorSet : SetSnapshot)

-- The struct literal DetectAccountableSafetyViolationWithContext returns.
def violationOf (first second : Proof) (firstSigners secondSigners doubleSigners : List ValidatorID)
    (doubleSignPower : VotingPower) : AccountableSafetyViolation where
  chainID := first.header.chainID
  height := first.header.height
  validatorSetHeight := first.validatorSetHeight
  validatorSetHash := first.validatorSetHash
  firstBlockHash := proofBlockHash first
  secondBlockHash := proofBlockHash second
  firstAppHash := first.header.appHash
  secondAppHash := second.header.appHash
  firstRound := first.quorumCert.round
  secondRound := second.quorumCert.round
  firstSigners := sortedSigners firstSigners
  secondSigners := sortedSigners secondSigners
  doubleSigners := doubleSigners
  doubleSignVotingPower := doubleSignPower
  totalVotingPower := validatorSet.totalVotingPower
  faultPowerThreshold := faultPowerThreshold validatorSet.totalVotingPower

def detectAccountableSafetyViolationWithContext (ctx : Context) (sets : Option Registry) (first second : Proof) :
    Except Err AccountableSafetyViolation := do
  require (ctx.done = false) .contextDone
  require (first.header.height = second.header.height) .heightMismatch
  require (proofBlockHash first ≠ proofBlockHash second) .noFinalityConflict
  require (first.validatorSetHeight ≠ 0 ∧ second.validatorSetHeight ≠ 0 ∧ first.validatorSetHeight = second.validatorSetHeight) .heightMismatch
  require (first.validatorSetHash = second.validatorSetHash ∧ first.header.validatorSetHash = second.header.validatorSetHash) .validatorSetMismatch
  match sets with
  | none => .error .finalitySetUnavailable
  | some registry => do
      let validatorSet ← registry first.validatorSetHeight
      require (first.validatorSetHash = validatorSet.hash) .validatorSetMismatch
      let firstSigners ← parseSigners first.quorumCert.signers
      let secondSigners ← parseSigners second.quorumCert.signers
      let (doubleSigners, doubleSignPower) ← overlappingVotingPower validatorSet firstSigners secondSigners
      return violationOf validatorSet first second firstSigners secondSigners doubleSigners doubleSignPower

def staticValidatorSetProvider : Registry := fun _ => .ok validatorSet

def detectAccountableSafetyViolation (first second : Proof) : Except Err AccountableSafetyViolation :=
  detectAccountableSafetyViolationWithContext Context.background (some (staticValidatorSetProvider validatorSet)) first second

structure AttackDetector where
  verifier : RegistryVerifier
  sets : Option Registry
  proofs : Height → Option Proof

def newRegistryAttackDetector (registry : Registry) (signatures : Option SignatureVerifier) : AttackDetector :=
  ⟨⟨some registry, signatures, false⟩, some registry, fun _ => none⟩

def AttackDetector.observeWithContext (detector : AttackDetector) (ctx : Context) (proof : Proof) :
    AttackDetector × Except Err (Option AccountableSafetyViolation) :=
  if ctx.done then (detector, .error .contextDone)
  else if detector.sets.isNone then (detector, .error .finalitySetUnavailable)
  else
    match detector.verifier.verifyFinalityProofWithContext ctx proof with
    | .error reason => (detector, .error reason)
    | .ok _ =>
      match detector.proofs proof.header.height with
      | none => ({ detector with proofs := Function.update detector.proofs proof.header.height (some proof) }, .ok none)
      | some previous =>
        match detectAccountableSafetyViolationWithContext ctx detector.sets previous proof with
        | .ok violation => (detector, .ok (some violation))
        | .error .noFinalityConflict => (detector, .ok none)
        | .error reason => (detector, .error reason)

def AttackDetector.observeAll (detector : AttackDetector) :
    List (Context × Proof) → AttackDetector × List (Except Err (Option AccountableSafetyViolation))
  | [] => (detector, [])
  | (ctx, proof) :: rest =>
    let (next, result) := detector.observeWithContext ctx proof
    let (final, results) := next.observeAll rest
    (final, result :: results)

def certSigners (cert : QuorumCert) : List ValidatorID :=
  match parseSigners cert.signers with
  | .ok signers => signers
  | .error _ => []

theorem fault_threshold_to_nat (total : VotingPower) : (faultPowerThreshold total).toNat = (total.toNat + 2) / 3 := by
  have bound := total.toNat_lt
  have remainder : total % 3 = 0 ↔ total.toNat % 3 = 0 := by
    rw [← UInt64.toNat_inj]
    simp
  unfold faultPowerThreshold
  split
  · rename_i zero
    simp [zero]
  · split
    · rename_i inexact
      rw [Ne, remainder] at inexact
      simp only [UInt64.toNat_add, UInt64.toNat_div, UInt64.reduceToNat]
      omega
    · rename_i exact
      rw [Ne, not_not, remainder] at exact
      simp only [UInt64.toNat_div, UInt64.reduceToNat]
      omega

theorem sorted_signers_perm : (sortedSigners signers).Perm signers :=
  perm_insertionSort _ signers

theorem overlap_loop_ok (set : SetSnapshot) (secondSigners firstSigners seen overlapping : List ValidatorID)
    (power : VotingPower) (distinct : firstSigners.Nodup) (fresh : ∀ signer ∈ firstSigners, signer ∉ seen)
    (known : ∀ signer ∈ firstSigners, ∃ validator, set.get signer = some validator)
    (fits : power.toNat + ((firstSigners.filter (· ∈ secondSigners)).map set.powerOf).sum < 2 ^ 64) :
    ∃ total, overlapLoop set secondSigners firstSigners seen overlapping power = .ok (overlapping ++ firstSigners.filter (· ∈ secondSigners), total) ∧
      total.toNat = power.toNat + ((firstSigners.filter (· ∈ secondSigners)).map set.powerOf).sum := by
  induction firstSigners generalizing seen overlapping power with
  | nil => exact ⟨power, by simp [overlapLoop], by simp⟩
  | cons signer rest ih =>
    obtain ⟨notLater, restDistinct⟩ := nodup_cons.mp distinct
    have notSeen := fresh signer mem_cons_self
    have restFresh : ∀ later ∈ rest, later ∉ signer :: seen := by
      intro later member listed
      rcases mem_cons.mp listed with rfl | earlier
      · exact notLater member
      · exact fresh later (mem_cons_of_mem _ member) earlier
    have restKnown := fun later member => known later (mem_cons_of_mem signer member)
    by_cases shared : signer ∈ secondSigners
    · obtain ⟨validator, found⟩ := known signer mem_cons_self
      have value := power_of_get found
      simp only [filter_cons, shared, decide_true, if_true, map_cons, sum_cons] at fits ⊢
      have addFits : power.toNat + validator.votingPower.toNat < 2 ^ 64 := by omega
      have added := add_voting_power_fits addFits
      have sum := add_voting_power_ok added
      obtain ⟨total, looped, totalEq⟩ := ih (signer :: seen) (overlapping ++ [signer]) (power + validator.votingPower)
        restDistinct restFresh restKnown (by omega)
      refine ⟨total, ?_, by omega⟩
      rw [overlapLoop, if_neg notSeen, if_neg (not_not.mpr shared), found]
      simp only [added, bind, Except.bind, looped, append_assoc, singleton_append]
    · simp only [filter_cons, shared, decide_false, Bool.false_eq_true, if_false] at fits ⊢
      obtain ⟨total, looped, totalEq⟩ := ih (signer :: seen) overlapping power restDistinct restFresh restKnown fits
      exact ⟨total, by rw [overlapLoop, if_neg notSeen, if_pos shared, looped], totalEq⟩

end

open AttackDetector

structure Exposes (first second : Proof) (violation : AccountableSafetyViolation) : Prop where
  exactSigners : ∀ id, id ∈ violation.doubleSigners ↔ id ∈ certSigners first.quorumCert ∧ id ∈ certSigners second.quorumCert
  distinct : violation.doubleSigners.Nodup
  meetsThreshold : violation.meetsFaultThreshold = true

variable {signers : List ValidatorID}

theorem cert_signers_parsed {cert : QuorumCert} (parsed : parseSigners cert.signers = .ok signers) : certSigners cert = signers := by
  simp only [certSigners, parsed]

variable {detector : AttackDetector} {set : SetSnapshot}

theorem signers_subset_members (known : ∀ signer ∈ signers, ∃ validator, set.get signer = some validator) : signers.toFinset ⊆ set.members := by
  intro signer listed
  obtain ⟨validator, found⟩ := known signer (mem_toFinset.mp listed)
  exact get_member found

theorem shared_power {first second : List ValidatorID} (distinct : first.Nodup) :
    ((first.filter (· ∈ second)).map set.powerOf).sum = weight set.powerOf (first.toFinset ∩ second.toFinset) := by
  rw [← weight_of_nodup set.powerOf _ (distinct.filter _)]
  congr 1
  ext id
  simp

-- Twice two thirds less the whole is a third: the shared signers carry at least the fault threshold.
theorem shared_power_bounds {first second : List ValidatorID} (fits : set.powerSum < 2 ^ 64)
    (firstDistinct : first.Nodup) (secondDistinct : second.Nodup)
    (firstKnown : ∀ signer ∈ first, ∃ validator, set.get signer = some validator)
    (secondKnown : ∀ signer ∈ second, ∃ validator, set.get signer = some validator)
    (firstQuorum : 2 * set.totalVotingPower.toNat ≤ 3 * (first.map set.powerOf).sum)
    (secondQuorum : 2 * set.totalVotingPower.toNat ≤ 3 * (second.map set.powerOf).sum) :
    ((first.filter (· ∈ second)).map set.powerOf).sum < 2 ^ 64 ∧
      set.totalVotingPower.toNat ≤ 3 * ((first.filter (· ∈ second)).map set.powerOf).sum := by
  have firstIn := signers_subset_members firstKnown
  have secondIn := signers_subset_members secondKnown
  have overlap := overlap_bound set.powerOf firstIn secondIn
  have all := members_weight set
  have total := total_of_fits fits
  have shared := weight_mono set.powerOf (Finset.inter_subset_left.trans firstIn : first.toFinset ∩ second.toFinset ⊆ set.members)
  rw [← weight_of_nodup set.powerOf first firstDistinct] at firstQuorum
  rw [← weight_of_nodup set.powerOf second secondDistinct] at secondQuorum
  rw [shared_power firstDistinct]
  omega

theorem proof_block_hash_certified {verifier : Verifier} {proof : Proof} (checked : ProofChecked verifier proof) :
    proofBlockHash proof = proof.quorumCert.blockHash := by
  have certified := checked.certHash
  unfold Proof.rootHash at certified
  unfold proofBlockHash
  split
  · rename_i present
    rw [certified, if_neg present]
  · rename_i absent
    split
    · rfl
    · rw [certified, if_pos (not_not.mp absent)]

theorem meets_threshold {total power : VotingPower} (positive : 0 < total.toNat) (third : total.toNat ≤ 3 * power.toNat) :
    power ≥ faultPowerThreshold total ∧ faultPowerThreshold total > 0 := by
  have threshold := fault_threshold_to_nat total
  constructor
  · rw [ge_iff_le, UInt64.le_iff_toNat_le, threshold]
    omega
  · rw [gt_iff_lt, UInt64.lt_iff_toNat_lt, threshold, UInt64.toNat_zero]
    omega

variable {ctx : Context} {first second : Proof}

theorem detect_exposes {sets : Registry} {signatures : Option SignatureVerifier} {strict : Bool} (live : ctx.done = false)
    (firstChecked : ProofChecked (newVerifier set signatures strict) first)
    (secondChecked : ProofChecked (newVerifier set signatures strict) second) (fits : set.powerSum < 2 ^ 64)
    (loaded : sets first.validatorSetHeight = .ok set) (heights : first.header.height = second.header.height)
    (conflict : proofBlockHash first ≠ proofBlockHash second)
    (sameSet : first.validatorSetHeight = second.validatorSetHeight) :
    ∃ violation, detectAccountableSafetyViolationWithContext ctx (some sets) first second = .ok violation ∧ Exposes first second violation := by
  obtain ⟨firstSigners, firstBacked⟩ := firstChecked.backed
  obtain ⟨secondSigners, secondBacked⟩ := secondChecked.backed
  have firstHash : first.validatorSetHash = set.hash := firstChecked.setHash
  have secondHash : second.validatorSetHash = set.hash := secondChecked.setHash
  have firstHeader : first.header.validatorSetHash = set.hash := firstChecked.headerSetHash
  have secondHeader : second.header.validatorSetHash = set.hash := secondChecked.headerSetHash
  obtain ⟨sharedFits, third⟩ := shared_power_bounds fits firstBacked.distinct secondBacked.distinct firstBacked.known
    secondBacked.known firstBacked.quorum.2 secondBacked.quorum.2
  obtain ⟨power, looped, powerEq⟩ := overlap_loop_ok set secondSigners firstSigners [] [] 0 firstBacked.distinct
    (by simp) firstBacked.known (by simpa using sharedFits)
  simp only [nil_append, UInt64.toNat_zero, Nat.zero_add] at looped powerEq
  have exposed := meets_threshold firstBacked.quorum.1 (powerEq ▸ third)
  have sorted := sorted_signers_perm (firstSigners.filter (· ∈ secondSigners))
  have overlapped : overlappingVotingPower set firstSigners secondSigners = .ok (sortedSigners (firstSigners.filter (· ∈ secondSigners)), power) := by
    simp only [overlappingVotingPower, looped]
    rfl
  refine ⟨violationOf set first second firstSigners secondSigners (sortedSigners (firstSigners.filter (· ∈ secondSigners))) power,
    ?_, ?_, sorted.nodup_iff.mpr (firstBacked.distinct.filter _), decide_eq_true exposed⟩
  · simp only [detectAccountableSafetyViolationWithContext, ok_iff]
    exact ⟨live, heights, conflict, ⟨firstChecked.setHeight, secondChecked.setHeight, sameSet⟩,
      ⟨firstHash.trans secondHash.symm, firstHeader.trans secondHeader.symm⟩, set, loaded, firstHash,
      firstSigners, firstBacked.parsed, secondSigners, secondBacked.parsed, _, overlapped, rfl⟩
  · intro id
    rw [cert_signers_parsed firstBacked.parsed, cert_signers_parsed secondBacked.parsed]
    simp only [violationOf, sorted.mem_iff, mem_filter, decide_eq_true_eq]

theorem detect_same_set_height {sets : Option Registry} {violation : AccountableSafetyViolation}
    (detected : detectAccountableSafetyViolationWithContext ctx sets first second = .ok violation) :
    first.validatorSetHeight = second.validatorSetHeight := by
  simp only [detectAccountableSafetyViolationWithContext, ok_iff] at detected
  exact detected.2.2.2.1.2.2

section Detection

variable {registry : Registry} {signatures : Option SignatureVerifier} {strict : Bool}

theorem registry_detect_exposes {firstCtx secondCtx : Context} (live : ctx.done = false)
    (fits : ∀ height set, registry height = .ok set → set.powerSum < 2 ^ 64)
    (firstAccepted : (RegistryVerifier.mk (some registry) signatures strict).verifyFinalityProofWithContext firstCtx first = .ok ())
    (secondAccepted : (RegistryVerifier.mk (some registry) signatures strict).verifyFinalityProofWithContext secondCtx second = .ok ())
    (heights : first.header.height = second.header.height) (conflict : proofBlockHash first ≠ proofBlockHash second)
    (sameSet : first.validatorSetHeight = second.validatorSetHeight) (sets : Registry)
    (provided : sets first.validatorSetHeight = registry first.validatorSetHeight) :
    ∃ violation, detectAccountableSafetyViolationWithContext ctx (some sets) first second = .ok violation ∧ Exposes first second violation := by
  obtain ⟨_, set, given, loaded, firstChecked⟩ := registry_verify_ok firstAccepted
  obtain ⟨_, set', given', loaded', secondChecked⟩ := registry_verify_ok secondAccepted
  cases given
  cases given'
  have same : set = set' := by
    rw [sameSet, loaded'] at loaded
    exact (Except.ok.inj loaded).symm
  subst same
  exact detect_exposes live firstChecked secondChecked (fits _ _ loaded) (provided.trans loaded) heights conflict sameSet

def Comparable (registry : Registry) (signatures : Option SignatureVerifier) (height setHeight : Height) (proof : Proof) : Prop :=
  proof.header.height = height ∧ proof.validatorSetHeight = setHeight ∧
    ∃ ctx, (RegistryVerifier.mk (some registry) signatures false).verifyFinalityProofWithContext ctx proof = .ok ()

def Watching (registry : Registry) (signatures : Option SignatureVerifier) (detector : AttackDetector) : Prop :=
  detector.verifier = ⟨some registry, signatures, false⟩ ∧ detector.sets = some registry

theorem observe_keeps (watching : Watching registry signatures detector) (ctx : Context)
    (proof : Proof) : Watching registry signatures (detector.observeWithContext ctx proof).1 ∧ ∀ height stored, detector.proofs height = some stored →
        (detector.observeWithContext ctx proof).1.proofs height = some stored := by
  unfold observeWithContext
  split
  · exact ⟨watching, fun _ _ found => found⟩
  · split
    · exact ⟨watching, fun _ _ found => found⟩
    · split
      · exact ⟨watching, fun _ _ found => found⟩
      · split
        · rename_i empty
          refine ⟨watching, fun height stored found => ?_⟩
          have different : height ≠ proof.header.height := by
            rintro rfl
            simp [empty] at found
          simpa [Function.update_of_ne different] using found
        · split <;> exact ⟨watching, fun _ _ found => found⟩

theorem observe_stored (ctx : Context) (proof : Proof) (height : Height) (stored : Proof)
    (found : (detector.observeWithContext ctx proof).1.proofs height = some stored) :
    detector.proofs height = some stored ∨ (stored = proof ∧ proof.header.height = height ∧
      detector.verifier.verifyFinalityProofWithContext ctx proof = .ok ()) := by
  unfold observeWithContext at found
  split at found
  · exact .inl found
  · split at found
    · exact .inl found
    · split at found
      · exact .inl found
      · rename_i verified
        split at found
        · by_cases same : height = proof.header.height
          · subst same
            simp only [Function.update_self, Option.some.injEq] at found
            exact .inr ⟨found.symm, rfl, verified⟩
          · simp only [Function.update_of_ne same] at found
            exact .inl found
        · split at found <;> exact .inl found

variable (watching : Watching registry signatures detector)
include watching

theorem observe_exposes (fits : ∀ height set, registry height = .ok set → set.powerSum < 2 ^ 64) {height setHeight : Height}
    (comparable : ∀ stored, detector.proofs height = some stored → Comparable registry signatures height setHeight stored) {proof : Proof} (atHeight : proof.header.height = height) (atSet : proof.validatorSetHeight = setHeight)
    (accepted : (RegistryVerifier.mk (some registry) signatures false).verifyFinalityProofWithContext ctx proof = .ok ()) :
    ∃ stored, (detector.observeWithContext ctx proof).1.proofs height = some stored ∧ (proofBlockHash stored = proofBlockHash proof ∨ ∃ violation,
        (detector.observeWithContext ctx proof).2 = .ok (some violation) ∧ Exposes stored proof violation) := by
  have live : ctx.done = false := by
    simp only [RegistryVerifier.verifyFinalityProofWithContext, ok_iff] at accepted
    exact accepted.1
  obtain ⟨verifierEq, setsEq⟩ := watching
  subst atHeight
  cases found : detector.proofs proof.header.height with
  | none =>
    refine ⟨proof, ?_, .inl rfl⟩
    simp [observeWithContext, live, setsEq, verifierEq, accepted, found]
  | some stored =>
    obtain ⟨storedHeight, storedSet, storedCtx, storedAccepted⟩ := comparable stored found
    by_cases agree : proofBlockHash stored = proofBlockHash proof
    · have kept := (observe_keeps ⟨verifierEq, setsEq⟩ ctx proof).2 _ _ found
      exact ⟨stored, kept, .inl agree⟩
    · obtain ⟨violation, detected, exposed⟩ := registry_detect_exposes live fits storedAccepted accepted storedHeight agree
        (storedSet.trans atSet.symm) registry rfl
      refine ⟨stored, ?_, .inr ⟨violation, ?_, exposed⟩⟩ <;>
        simp [observeWithContext, live, setsEq, verifierEq, accepted, found, detected]

theorem observe_all_keeps (observations : List (Context × Proof)) (height : Height) (stored : Proof)
    (found : detector.proofs height = some stored) : (detector.observeAll observations).1.proofs height = some stored := by
  induction observations generalizing detector with
  | nil => exact found
  | cons observation rest ih =>
    obtain ⟨nextWatching, kept⟩ := observe_keeps watching observation.1 observation.2
    exact ih nextWatching (kept height stored found)

theorem observe_all_exposes (fits : ∀ height set, registry height = .ok set → set.powerSum < 2 ^ 64) {height setHeight : Height}
    (comparable : ∀ stored, detector.proofs height = some stored → Comparable registry signatures height setHeight stored)
    (observations : List (Context × Proof))
    (uniform : ∀ observation ∈ observations, observation.2.header.height = height →
      (RegistryVerifier.mk (some registry) signatures false).verifyFinalityProofWithContext observation.1 observation.2 = .ok () →
      observation.2.validatorSetHeight = setHeight) (ctx : Context) (proof : Proof) (observed : (ctx, proof) ∈ observations)
    (atHeight : proof.header.height = height)
    (accepted : (RegistryVerifier.mk (some registry) signatures false).verifyFinalityProofWithContext ctx proof = .ok ()) :
    ∃ stored, (detector.observeAll observations).1.proofs height = some stored ∧ (proofBlockHash stored = proofBlockHash proof ∨ ∃ violation,
        .ok (some violation) ∈ (detector.observeAll observations).2 ∧ Exposes stored proof violation) := by
  induction observations generalizing detector with
  | nil => simp at observed
  | cons observation rest ih =>
    obtain ⟨nextWatching, kept⟩ := observe_keeps watching observation.1 observation.2
    rcases mem_cons.mp observed with rfl | later
    · have atSet := uniform (ctx, proof) mem_cons_self atHeight accepted
      obtain ⟨stored, found, outcome⟩ := observe_exposes watching fits comparable atHeight atSet accepted
      refine ⟨stored, observe_all_keeps nextWatching rest height stored found, ?_⟩
      rcases outcome with agree | ⟨violation, reported, exposed⟩
      · exact .inl agree
      · exact .inr ⟨violation, reported ▸ mem_cons_self .., exposed⟩
    · have nextComparable : ∀ stored, (detector.observeWithContext observation.1 observation.2).1.proofs height = some stored →
          Comparable registry signatures height setHeight stored := by
        intro stored found
        rcases observe_stored observation.1 observation.2 height stored found with earlier | ⟨rfl, same, verified⟩
        · exact comparable stored earlier
        · rw [watching.1] at verified
          exact ⟨same, uniform observation mem_cons_self same verified, observation.1, verified⟩
      obtain ⟨stored, found, outcome⟩ := ih nextWatching nextComparable
        (forall_mem_cons.mp uniform).2 later
      refine ⟨stored, found, ?_⟩
      rcases outcome with agree | ⟨violation, reported, exposed⟩
      · exact .inl agree
      · exact .inr ⟨violation, mem_cons_of_mem _ reported, exposed⟩

end Detection

def Detects (sets : Registry) (ctx : Context) (first second : Proof) : Prop :=
  ∃ violation, detectAccountableSafetyViolationWithContext ctx (some sets) first second = .ok violation ∧ Exposes first second violation

-- The verifier lets each proof choose a validator-set height; the detector compares the two only when they chose the same.
theorem conflicting_proofs_exposed_iff (registry : Registry) (signatures : Option SignatureVerifier) (strict : Bool)
    (fits : ∀ height set, registry height = .ok set → set.powerSum < 2 ^ 64) (ctx firstCtx secondCtx : Context)
    (live : ctx.done = false) (first second : Proof)
    (firstAccepted : (RegistryVerifier.mk (some registry) signatures strict).verifyFinalityProofWithContext firstCtx first = .ok ())
    (secondAccepted : (RegistryVerifier.mk (some registry) signatures strict).verifyFinalityProofWithContext secondCtx second = .ok ())
    (heights : first.header.height = second.header.height) (conflict : proofBlockHash first ≠ proofBlockHash second) :
    (Detects registry ctx first second ↔ first.validatorSetHeight = second.validatorSetHeight) ∧
      (Detects registry ctx second first ↔ first.validatorSetHeight = second.validatorSetHeight) ∧
      (∀ set, registry first.validatorSetHeight = .ok set → (Detects (staticValidatorSetProvider set) Context.background first second ↔
          first.validatorSetHeight = second.validatorSetHeight) ∧
        (Detects (staticValidatorSetProvider set) Context.background second first ↔ first.validatorSetHeight = second.validatorSetHeight)) ∧
      (∀ (observations : List (Context × Proof)) (firstSeen secondSeen : Context), firstSeen.done = false →
        secondSeen.done = false → (firstSeen, first) ∈ observations → (secondSeen, second) ∈ observations →
        (∀ observation ∈ observations, observation.2.header.height = first.header.height →
          (RegistryVerifier.mk (some registry) signatures false).verifyFinalityProofWithContext observation.1 observation.2 = .ok () →
          observation.2.validatorSetHeight = first.validatorSetHeight) →
        ∃ stored current violation, (current = first ∨ current = second) ∧ proofBlockHash stored ≠ proofBlockHash current ∧
          .ok (some violation) ∈ ((newRegistryAttackDetector registry signatures).observeAll observations).2 ∧
          Exposes stored current violation) := by
  have inOrder : ∀ (sets : Registry) (ctx : Context), ctx.done = false → sets first.validatorSetHeight = registry first.validatorSetHeight →
      (Detects sets ctx first second ↔ first.validatorSetHeight = second.validatorSetHeight) := by
    intro sets ctx live provided
    constructor
    · rintro ⟨_, detected, _⟩
      exact detect_same_set_height detected
    · intro sameSet
      exact registry_detect_exposes live fits firstAccepted secondAccepted heights conflict sameSet sets provided
  have swapped : ∀ (sets : Registry) (ctx : Context), ctx.done = false → sets first.validatorSetHeight = registry first.validatorSetHeight →
      (Detects sets ctx second first ↔ first.validatorSetHeight = second.validatorSetHeight) := by
    intro sets ctx live provided
    constructor
    · rintro ⟨_, detected, _⟩
      exact (detect_same_set_height detected).symm
    · intro sameSet
      exact registry_detect_exposes live fits secondAccepted firstAccepted heights.symm conflict.symm sameSet.symm sets
        (sameSet ▸ provided)
  refine ⟨inOrder registry ctx live rfl, swapped registry ctx live rfl, ?_, ?_⟩
  · intro set loaded
    exact ⟨inOrder _ .background rfl loaded.symm, swapped _ .background rfl loaded.symm⟩
  · intro observations firstSeen secondSeen firstLive secondLive firstIn secondIn uniform
    have watching : Watching registry signatures (newRegistryAttackDetector registry signatures) := ⟨rfl, rfl⟩
    have nothingStored : ∀ stored, (newRegistryAttackDetector registry signatures).proofs first.header.height = some stored →
        Comparable registry signatures first.header.height first.validatorSetHeight stored := by
      intro stored found
      cases found
    obtain ⟨stored, found, firstOutcome⟩ := observe_all_exposes watching fits nothingStored observations uniform firstSeen first
      firstIn rfl (registry_verify_lenient firstLive firstAccepted)
    obtain ⟨stored', found', secondOutcome⟩ := observe_all_exposes watching fits nothingStored observations uniform secondSeen
      second secondIn heights.symm (registry_verify_lenient secondLive secondAccepted)
    have same : stored' = stored := by
      rw [found] at found'
      exact (Option.some.inj found').symm
    subst same
    -- The stored proof cannot agree with both, so whichever it contradicts was exposed when it was observed.
    by_cases agree : proofBlockHash stored' = proofBlockHash first
    · have disagree : proofBlockHash stored' ≠ proofBlockHash second := fun other => conflict (agree.symm.trans other)
      obtain ⟨violation, reported, exposed⟩ := secondOutcome.resolve_left disagree
      exact ⟨stored', second, violation, .inr rfl, disagree, reported, exposed⟩
    · obtain ⟨violation, reported, exposed⟩ := firstOutcome.resolve_left agree
      exact ⟨stored', first, violation, .inl rfl, agree, reported, exposed⟩

def bareProof (appHash : Hash) (validatorSetHeight : Height) : Proof :=
  let header := headerAt 2 zeroHash appHash
  ⟨header, hashHeader header, signedCert 2 (hashHeader header), [], validatorSetHeight, soleValidator.hash⟩

def soleRegistry : Registry := staticValidatorSetProvider soleValidator

theorem bare_hashes : hashHeader (headerAt 2 zeroHash zeroHash) ≠ zeroHash ∧ hashHeader (headerAt 2 zeroHash otherAppHash) ≠ zeroHash ∧
    hashHeader (headerAt 2 zeroHash zeroHash) ≠ hashHeader (headerAt 2 zeroHash otherAppHash) := by
  decide +kernel

theorem bare_proof_accepted (appHash : Hash) (setHeight : Height) (present : hashHeader (headerAt 2 zeroHash appHash) ≠ zeroHash)
    (positive : setHeight ≠ 0) (historical : setHeight ≤ 2) :
    (RegistryVerifier.mk (some soleRegistry) (some deterministicSignatures) false).verifyFinalityProofWithContext
      .background (bareProof appHash setHeight) = .ok () := by
  have root : (bareProof appHash setHeight).rootHash = hashHeader (headerAt 2 zeroHash appHash) := if_neg present
  have signBytes : (bareProof appHash setHeight).signBytes = Signbytes.vote 2 0 (hashHeader (headerAt 2 zeroHash appHash)) := by
    simp [Proof.signBytes, bareProof, signedCert, present]
  have certified := signed_cert_accepted false 2 (hashHeader (headerAt 2 zeroHash appHash))
  simp only [RegistryVerifier.verifyFinalityProofWithContext, Verifier.verifyFinalityProofWithContext, ok_iff, root, signBytes]
  exact ⟨rfl, soleValidator, rfl, rfl, ⟨rfl, rfl⟩, ⟨positive, historical⟩, (), certified, rfl⟩

theorem bare_proofs_conflict (setHeight setHeight' : Height) :
    proofBlockHash (bareProof zeroHash setHeight) ≠ proofBlockHash (bareProof otherAppHash setHeight') := by
  obtain ⟨present, otherPresent, different⟩ := bare_hashes
  simpa [proofBlockHash, bareProof, present, otherPresent] using different

theorem conflict_at_two_set_heights_missed :
    (RegistryVerifier.mk (some soleRegistry) (some deterministicSignatures) false).verifyFinalityProofWithContext
        Context.background (bareProof zeroHash 1) = .ok () ∧
      (RegistryVerifier.mk (some soleRegistry) (some deterministicSignatures) false).verifyFinalityProofWithContext
        Context.background (bareProof otherAppHash 2) = .ok () ∧
      proofBlockHash (bareProof zeroHash 1) ≠ proofBlockHash (bareProof otherAppHash 2) ∧
      detectAccountableSafetyViolation soleValidator (bareProof zeroHash 1) (bareProof otherAppHash 2) = .error .heightMismatch := by
  obtain ⟨present, otherPresent, -⟩ := bare_hashes
  have conflict := bare_proofs_conflict 1 2
  have mismatch : ¬ ((bareProof zeroHash 1).validatorSetHeight = (bareProof otherAppHash 2).validatorSetHeight) := by
    simp [bareProof]
  refine ⟨bare_proof_accepted _ 1 present (by decide) (by decide), bare_proof_accepted _ 2 otherPresent (by decide) (by decide), conflict, ?_⟩
  simp only [detectAccountableSafetyViolation, detectAccountableSafetyViolationWithContext, require, conflict, mismatch,
    and_false, if_false, ne_eq, not_false_eq_true, if_true, bind, Except.bind, Context.background]
  rfl

theorem conflict_at_one_set_height_exposed : Detects soleRegistry Context.background (bareProof zeroHash 2) (bareProof otherAppHash 2) :=
  (conflicting_proofs_exposed_iff soleRegistry (some deterministicSignatures) false
    (by rintro height set ⟨⟩; decide) .background .background .background rfl
    (bareProof zeroHash 2) (bareProof otherAppHash 2) (bare_proof_accepted _ 2 bare_hashes.1 (by decide) (by decide))
    (bare_proof_accepted _ 2 bare_hashes.2.1 (by decide) (by decide)) rfl (bare_proofs_conflict 2 2)).1.mpr rfl

end Vexo.Finality

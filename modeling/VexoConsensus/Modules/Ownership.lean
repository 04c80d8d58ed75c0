import VexoConsensus.Modules.Governance
import VexoConsensus.Modules.Ibc
import VexoConsensus.Modules.Params

namespace Vexo.Ownership

open ByteCodec Checks GoText App OrderedMap GovernanceModule

variable (store : Store)

def LowersNoOther (next : Store) (owner : Address) : Prop :=
  ∀ address balance, address ≠ owner → Bank.balanceBig store address = .ok balance →
    ∃ later, Bank.balanceBig next address = .ok later ∧ balance ≤ later

-- The owner pays, or the two sides of the transfer have one record; and no spelling of the receiver shows more than the record then holds.
def OwnSend (owner sender receiver : Address) (amount : Nat) : Prop :=
  (sender = owner ∨ Bank.balanceKey sender = Bank.balanceKey receiver) ∧
    ∀ address balance received, address ≠ owner → Bank.balanceKey address = Bank.balanceKey receiver →
      Bank.balanceBig store address = .ok balance → Bank.balanceBig store receiver = .ok received → balance ≤ received + amount

variable {gas : Option GasMeter} {height : Height} {tx : Tx}

section Transfers

variable {store next : Store} {owner sender receiver : Address} {amount : Int}

theorem send_lowers_no_other_iff (account : AccountName owner) (sent : Bank.send store sender receiver amount = .ok next) :
    LowersNoOther store next owner ↔ OwnSend store owner sender receiver amount.toNat := by
  simp only [Bank.send, ok_iff] at sent
  obtain ⟨⟨-, -, positive⟩, moved⟩ := sent
  obtain ⟨senderBalance, received, readSender, readReceiver, effect⟩ := move_balance_ok moved
  -- Every spelling of the receiver reads the record the transfer leaves.
  have arrived : ∀ address, Bank.balanceKey address = Bank.balanceKey receiver → Bank.balanceBig next address = .ok (received + amount.toNat) :=
    fun address same => read_recorded effect.bounded (same ▸ moved_receiver effect)
  constructor
  · intro lowers
    refine ⟨?_, fun address balance received' other same read read' => ?_⟩
    · by_contra neither
      obtain ⟨other, apart⟩ := not_or.mp neither
      obtain ⟨enough, left⟩ := move_balance_lowers moved apart senderBalance readSender
      obtain ⟨later, readLater, kept⟩ := lowers sender senderBalance other readSender
      cases left.symm.trans readLater
      omega
    · cases readReceiver.symm.trans read'
      obtain ⟨later, readLater, kept⟩ := lowers address balance other read
      cases (arrived address same).symm.trans readLater
      exact kept
  · rintro ⟨payer, spellings⟩ address balance other read
    by_cases same : Bank.balanceKey address = Bank.balanceKey receiver
    · exact ⟨_, arrived address same, spellings address balance received other same read readReceiver⟩
    · have notSender : Bank.balanceKey address ≠ Bank.balanceKey sender := by
        intro shared
        rcases payer with rfl | joint
        · rw [Bank.balance_key_eq, account_key account] at shared
          exact other (key_of_account account shared)
        · exact same (shared.trans joint)
      exact ⟨balance, (move_balance_others Bank.balance_key_idempotent moved _ address notSender same).trans read, le_refl balance⟩

theorem bank_send_iff (account : AccountName owner) {module : Bank.Module} {gas' : Option GasMeter}
    {name action sender receiver text : GoString} (delivered : Bank.deliverTx module gas store tx = .ok (next, gas'))
    (parts : untaggedParts tx = [name, action, sender, receiver, text]) :
    ∃ amount, Bank.parseAmountBig text = .ok amount ∧ (LowersNoOther store next owner ↔ OwnSend store owner sender receiver amount) := by
  simp only [Bank.deliverTx, parts, ok_iff, failing_ok_iff] at delivered
  obtain ⟨-, gas, -, amount, parsed, after, sent, done⟩ := delivered
  cases done
  exact ⟨amount, parsed, send_lowers_no_other_iff account sent⟩

end Transfers

section Votes

open Governance

variable {policy : TallyPolicy} {keeper next : StoreKeeper} {store : Store} {owner : Address}

theorem module_vote_ok {proposalID voter option : GoString} {done : Unit}
    (voted : GovernanceModule.vote keeper store proposalID voter option = (next, .ok done)) :
    ∃ id power middle, voter ≠ [] ∧ keeper.setVotingPower voter power = .ok middle ∧ middle.vote id voter option = .ok next := by
  simp only [GovernanceModule.vote] at voted
  split at voted
  · cases voted
  · rename_i id middle prepared
    simp only [ok_iff] at prepared
    obtain ⟨id', -, power, delegated, -, middle', raised, same⟩ := prepared
    cases same
    have named : voter ≠ [] := by
      simp only [Staking.delegatedPower, ok_iff] at delegated
      exact delegated.1
    split at voted
    · cases voted
    · next last recorded =>
      cases voted
      exact ⟨id, power, middle, named, raised, recorded⟩

variable {delivery : GovernanceModule.Delivery} {proposal : Proposal} {arguments : List GoString}

theorem deliver_ok_parts {name action : GoString} (delivered : deliverTx policy height keeper gas store tx = (next, .ok delivery))
    (parts : executionParts tx = name :: action :: arguments) :
    ∃ timed, keeper.setTime height = .ok timed ∧ deliverParts policy timed gas store action arguments = (next, .ok delivery) := by
  unfold deliverTx at delivered
  cases timed : keeper.setTime height with
  | error reason =>
    rw [timed] at delivered
    cases delivered
  | ok keeper' =>
    simp only [timed, parts] at delivered
    split at delivered
    · exact ⟨keeper', rfl, delivered⟩
    · cases delivered

theorem deliver_vote_ok {ballot : StoreKeeper × Except AppErr Unit}
    (delivered : deliverVote keeper gas store ballot = (next, .ok delivery)) : ballot = (next, .ok ()) ∧ delivery.store = store := by
  unfold deliverVote at delivered
  split at delivered
  · cases delivered
  · obtain ⟨keeper', outcome⟩ := ballot
    cases outcome with
    | error reason => cases delivered
    | ok done =>
      cases delivered
      exact ⟨rfl, rfl⟩

theorem governance_vote_iff {name proposalID voter option : GoString} (delivered : deliverTx policy height keeper gas store tx = (next, .ok delivery))
    (parts : executionParts tx = [name, utf8 "vote", proposalID, voter, option]) :
    RecordsNoOther keeper next owner ∧ LowersNoOther store delivery.store owner ↔ voter = owner := by
  obtain ⟨timed, clock, run⟩ := deliver_ok_parts delivered parts
  rw [deliverParts, if_pos rfl] at run
  obtain ⟨ballot, same⟩ := deliver_vote_ok run
  obtain ⟨id, power, middle, named, raised, recorded⟩ := module_vote_ok ballot
  obtain ⟨before, afterTime, loaded, readTime, sameTime⟩ := set_time_votes clock
  obtain ⟨beforePower, afterPower, loadedPower, readPower, samePower⟩ := set_voting_power_votes named raised
  obtain ⟨beforeVote, after, loadedVote, saved, first, added, others⟩ := vote_recorded recorded
  cases readTime.symm.trans loadedPower
  cases readPower.symm.trans loadedVote
  have unchanged : ∀ proposalID voter, votesOf afterPower proposalID voter = votesOf before proposalID voter :=
    fun proposalID voter => (samePower proposalID voter).trans (sameTime proposalID voter)
  constructor
  · rintro ⟨records, -⟩
    by_contra other
    obtain ⟨record, present⟩ := Option.isSome_iff_exists.mp added
    have already := records before after loaded saved id voter record other present
    rw [← unchanged, first] at already
    contradiction
  · rintro rfl
    refine ⟨fun before' after' loaded' saved' proposalID voter' record other present => ?_, fun address balance _ read => ?_⟩
    · cases loaded.symm.trans loaded'
      cases saved.symm.trans saved'
      rw [← unchanged, ← others proposalID voter' other]
      exact present
    · rw [same]
      exact ⟨balance, read, le_refl balance⟩

def submittedProposal (action : GoString) : List GoString → Option Proposal
  | [submitter, title, module, key, value] =>
    if action = utf8 "submit" then some ⟨0, title, [], trimSpace [], [⟨module, key, value⟩], submitter⟩ else none
  | [submitter, title, module, key, value, deposit] =>
    if action = utf8 "submit" then some ⟨0, title, [], trimSpace deposit, [⟨module, key, value⟩], submitter⟩ else none
  | [payload] => if action = utf8 "submit-json" then (GovernanceModule.proposalOfJSON payload).toOption else none
  | _ => none

def OwnDeposit (policy : TallyPolicy) (store : Store) (owner : Address) (proposal : Proposal) : Prop :=
  ∀ amount, trimSpace proposal.deposit ≠ [] → GovernanceModule.validateProposalDeposit policy proposal.deposit = .ok (some amount) →
    OwnSend store owner proposal.submitter (GovernanceModule.depositEscrowAddress policy) amount

theorem nonblank_deposit {deposit : GoString} {amount : Option Nat} (present : trimSpace deposit ≠ [])
    (validated : validateProposalDeposit policy deposit = .ok amount) : amount.isSome := by
  simp only [validateProposalDeposit, if_neg present, ok_iff] at validated
  obtain ⟨-, value, -, validated⟩ := validated
  split at validated
  · simp only [bind_ok_iff, require_ok_iff] at validated
    obtain ⟨_, -, _, -, done⟩ := validated
    cases done
    rfl
  · cases validated
    rfl

theorem escrow_lowers_iff (account : AccountName owner) {after : Store} (escrowed : escrowDeposit policy store proposal = .ok after) :
    LowersNoOther store after owner ↔ OwnDeposit policy store owner proposal := by
  unfold escrowDeposit moveDeposit at escrowed
  by_cases blank : trimSpace proposal.deposit = []
  · rw [if_pos blank] at escrowed
    cases escrowed
    exact ⟨fun _ amount present => absurd blank present, fun _ address balance _ read => ⟨balance, read, le_refl balance⟩⟩
  · simp only [if_neg blank, bind_ok_iff] at escrowed
    obtain ⟨amount, validated, sent⟩ := escrowed
    obtain ⟨value, rfl⟩ := Option.isSome_iff_exists.mp (nonblank_deposit blank validated)
    refine (send_lowers_no_other_iff account sent).trans ⟨fun own amount _ again => ?_, fun own => own value blank validated⟩
    cases validated.symm.trans again
    exact own

theorem submit_proposal_iff (account : AccountName owner) {id : UInt64} {after : Store}
    (submitted : submitProposal policy keeper store proposal = .ok (id, next, after)) :
    RecordsNoOther keeper next owner ∧ LowersNoOther store after owner ↔ OwnDeposit policy store owner proposal := by
  simp only [submitProposal, bind_ok_iff] at submitted
  obtain ⟨amount, -, after', escrowed, ⟨id', keeper'⟩, recorded, done⟩ := submitted
  cases done
  obtain ⟨before, saved, loaded, read, kept⟩ := submit_records_no_vote recorded
  have records : RecordsNoOther keeper keeper' owner := by
    intro before' saved' loaded' read' proposalID voter record _ present
    cases loaded.symm.trans loaded'
    cases read.symm.trans read'
    exact kept proposalID voter record present
  rw [escrow_lowers_iff account escrowed]
  exact and_iff_right records

theorem timed_records_iff {timed : StoreKeeper} (clock : keeper.setTime height = .ok timed) :
    RecordsNoOther timed next owner ↔ RecordsNoOther keeper next owner := by
  obtain ⟨before, middle, loaded, read, same⟩ := set_time_votes clock
  constructor
  · intro records before' after loaded' saved proposalID voter record other present
    cases loaded.symm.trans loaded'
    exact (same proposalID voter).symm.trans (records middle after read saved proposalID voter record other present)
  · intro records middle' after read' saved proposalID voter record other present
    cases read.symm.trans read'
    exact (same proposalID voter).trans (records before after loaded saved proposalID voter record other present)

theorem deliver_submit_ok {submission : Except AppErr (UInt64 × StoreKeeper × Store)} (delivered : deliverSubmit keeper gas submission = (next, .ok delivery)) :
    ∃ id, submission = .ok (id, next, delivery.store) := by
  unfold deliverSubmit settled at delivered
  split at delivered
  · cases delivered
  · rename_i outcome
    simp only [bind_ok_iff, failing_ok_iff] at outcome
    obtain ⟨gas', -, ⟨id, keeper', after⟩, submitted, done⟩ := outcome
    cases done
    cases delivered
    exact ⟨id, submitted⟩

theorem governance_submit_iff (account : AccountName owner) {name action : GoString}
    (delivered : deliverTx policy height keeper gas store tx = (next, .ok delivery))
    (parts : executionParts tx = name :: action :: arguments) (submission : submittedProposal action arguments = some proposal) :
    RecordsNoOther keeper next owner ∧ LowersNoOther store delivery.store owner ↔ OwnDeposit policy store owner proposal := by
  obtain ⟨timed, clock, run⟩ := deliver_ok_parts delivered parts
  have submitted : ∃ id, submitProposal policy timed store proposal = .ok (id, next, delivery.store) := by
    unfold submittedProposal at submission
    split at submission
    · split at submission
      · rename_i submits
        cases submission
        rw [deliverParts, if_pos submits] at run
        exact deliver_submit_ok run
      · cases submission
    · split at submission
      · rename_i submits
        cases submission
        rw [deliverParts, if_pos submits] at run
        exact deliver_submit_ok run
      · cases submission
    · split at submission
      · rename_i submits
        rw [deliverParts, if_pos submits] at run
        obtain ⟨id, submitted⟩ := deliver_submit_ok run
        simp only [submitJSON, bind_ok_iff] at submitted
        obtain ⟨proposal', read, submitted⟩ := submitted
        rw [read] at submission
        cases submission
        exact ⟨id, submitted⟩
      · cases submission
    · cases submission
  obtain ⟨id, submitted⟩ := submitted
  rw [← timed_records_iff clock]
  exact submit_proposal_iff account submitted

end Votes

section Authorities

variable {owner : Address}

theorem signer_in_payload {verify : TxSignatureVerifier} {chainID : GoString} (signed : SignedBy verify chainID tx owner) :
    AccountName owner ∧ txPayload (txPayload tx) = txPayload tx ∧ txTag (txPayload tx) (utf8 "signer") = some owner := by
  obtain ⟨envelope, payload, publicKey, signature, opened, -, -, -, -, named, derived⟩ := signed
  have carried := tx_payload_of_opened opened
  have flat := tagged_payload_flat opened named
  rw [carried]
  exact ⟨account_named derived, flat, (tx_tag_congr (flat.trans carried.symm) _).trans named⟩

theorem params_set_iff {records : Params.Records} {delivery : Params.Delivery} {name action authority module key value : GoString}
    (delivered : Params.deliverTx records tx = .ok delivery) (parts : tx.splitOn 58 = [name, action, authority, module, key, value]) :
    delivery.change.authority = owner ↔ authority = owner := by
  simp only [Params.deliverTx, parts, ok_iff, failing_ok_iff] at delivered
  obtain ⟨-, value, -, result, -, done⟩ := delivered
  cases done
  exact Iff.rfl

-- A tag for the authority that is not blank takes the place of the signer.
theorem client_authority_iff (account : AccountName owner) {tags : Table GoString GoString} (named : tags.lookup (utf8 "signer") = some owner) :
    IBCModule.clientAuthority tags = owner ↔
      trimSpace ((tags.lookup (utf8 "authority")).getD []) = [] ∨ trimSpace ((tags.lookup (utf8 "authority")).getD []) = owner := by
  have spelled : trimSpace ((tags.lookup (utf8 "signer")).getD []) = owner := by
    rw [named]
    exact trim_space_fixed account.characters
  simp only [IBCModule.clientAuthority, spelled]
  by_cases blank : trimSpace ((tags.lookup (utf8 "authority")).getD []) = [] <;> simp [blank]

theorem ibc_update_iff (account : AccountName owner) {state : IBC.State}
    {delivery : IBCModule.Delivery} {canonical : CanonicalTx} (delivered : IBCModule.deliverTx height state gas tx = .ok delivery)
    (parsed : IBCModule.parseAction tx = .ok (canonical, .clientUpdate)) (named : txTag tx (utf8 "signer") = some owner) :
    IBCModule.deliverClientUpdate state gas canonical.args (IBCModule.clientAuthority canonical.tags) = .ok delivery ∧
      (IBCModule.clientAuthority canonical.tags = owner ↔
        trimSpace ((txTag tx (utf8 "authority")).getD []) = [] ∨ trimSpace ((txTag tx (utf8 "authority")).getD []) = owner) := by
  simp only [IBCModule.deliverTx, bind_ok_iff, failing_ok_iff, parsed] at delivered
  obtain ⟨result, same, delivered⟩ := delivered
  cases same
  have read : parseCanonicalTx tx = .ok canonical := by
    unfold IBCModule.parseAction at parsed
    split at parsed
    · cases parsed
    · rename_i canonical' read
      split at parsed
      · cases parsed
      · split at parsed
        · cases parsed
          exact read
        · cases parsed
  simp only [txTag, read] at named ⊢
  exact ⟨delivered, client_authority_iff account named⟩

end Authorities

theorem only_owner_acts_iff (verify : TxSignatureVerifier) (chainID : GoString) (tx : Tx) (signer : Address)
    (signed : SignedBy verify chainID tx signer) :
    (∀ module gas gas' store next name action sender receiver text amount, Bank.deliverTx module gas store (txPayload tx) = .ok (next, gas') →
      untaggedParts (txPayload tx) = [name, action, sender, receiver, text] → Bank.parseAmountBig text = .ok amount →
      (LowersNoOther store next signer ↔ OwnSend store signer sender receiver amount)) ∧
    (∀ module height gas store delivery name action delegator validatorID rest,
      Staking.deliverTx module height gas store (txPayload tx) = .ok delivery →
      executionParts (txPayload tx) = name :: action :: delegator :: validatorID :: rest → action ∈ Staking.delegationActions →
      (Staking.OthersUntouched store delivery.store signer ↔ delegator = signer ∧ Staking.Undivided validatorID)) ∧
    (∀ policy height keeper keeper' gas store delivery name proposalID voter option,
      GovernanceModule.deliverTx policy height keeper gas store (txPayload tx) = (keeper', .ok delivery) →
      executionParts (txPayload tx) = [name, utf8 "vote", proposalID, voter, option] →
      (Governance.RecordsNoOther keeper keeper' signer ∧ LowersNoOther store delivery.store signer ↔ voter = signer)) ∧
    (∀ policy height keeper keeper' gas store delivery name action arguments proposal,
      GovernanceModule.deliverTx policy height keeper gas store (txPayload tx) = (keeper', .ok delivery) →
      executionParts (txPayload tx) = name :: action :: arguments → submittedProposal action arguments = some proposal →
      (Governance.RecordsNoOther keeper keeper' signer ∧ LowersNoOther store delivery.store signer ↔ OwnDeposit policy store signer proposal)) ∧
    (∀ records delivery name action authority module key value, Params.deliverTx records (txPayload tx) = .ok delivery →
      (txPayload tx).splitOn 58 = [name, action, authority, module, key, value] →
      (delivery.change.authority = signer ↔ authority = signer)) ∧
    (∀ height state gas delivery canonical, IBCModule.deliverTx height state gas (txPayload tx) = .ok delivery →
      IBCModule.parseAction (txPayload tx) = .ok (canonical, .clientUpdate) →
      IBCModule.deliverClientUpdate state gas canonical.args (IBCModule.clientAuthority canonical.tags) = .ok delivery ∧
        (IBCModule.clientAuthority canonical.tags = signer ↔ trimSpace ((txTag (txPayload tx) (utf8 "authority")).getD []) = [] ∨
          trimSpace ((txTag (txPayload tx) (utf8 "authority")).getD []) = signer)) := by
  obtain ⟨account, -, named⟩ := signer_in_payload signed
  refine ⟨?_, ?_, ?_, ?_, ?_, ?_⟩
  · intro module gas gas' store next name action sender receiver text amount delivered parts parsed
    obtain ⟨amount', parsed', condition⟩ := bank_send_iff account delivered parts
    cases parsed.symm.trans parsed'
    exact condition
  · intro module height gas store delivery name action delegator validatorID rest delivered parts about
    exact Staking.acted_untouched_iff account (Staking.delivered_acted delivered parts about)
  · intro policy height keeper keeper' gas store delivery name proposalID voter option delivered parts
    exact governance_vote_iff delivered parts
  · intro policy height keeper keeper' gas store delivery name action arguments proposal delivered parts submission
    exact governance_submit_iff account delivered parts submission
  · intro records delivery name action authority module key value delivered parts
    exact params_set_iff delivered parts
  · intro height state gas delivery canonical delivered parsed
    exact ibc_update_iff account delivered parsed named

def aliceForged : Tx := (signTx vexoChain (utf8 "bank:send:alice:bob:5:signer=" ++ keyAccount ++ utf8 ":nonce=1:gas=1") echoSigner).toOption.getD []

def keyStore : Store := AList.insert (bankSpace, keyAccount) (encodeBalanceBig 10) ∅

def bankOnly : Bank.Module := ⟨[]⟩

def balanceAfter (tx : Tx) (address : Address) : Except Failure (Option Nat) :=
  (Bank.deliverTx bankOnly none store (txPayload tx)).map fun delivered => (Bank.balanceBig delivered.1 address).toOption

theorem key_sends_evaluated : verifySignedTx vexoChain aliceForged echoTxVerifier = .ok () ∧ txTag aliceForged (utf8 "signer") = some keyAccount ∧
    Bank.balanceBig Bank.aliceStore Bank.alice = .ok 10 ∧ balanceAfter Bank.aliceStore aliceForged Bank.alice = .ok (some 5) ∧
    Bank.alice ≠ keyAccount ∧ keyAccount ≠ [] ∧ verifySignedTx vexoChain signedSend echoTxVerifier = .ok () ∧
    txTag signedSend (utf8 "signer") = some keyAccount ∧
    untaggedParts (txPayload signedSend) = [utf8 "bank", utf8 "send", keyAccount, Bank.bob, utf8 "5"] ∧
    Bank.parseAmountBig (utf8 "5") = .ok 5 ∧ balanceAfter keyStore signedSend keyAccount = .ok (some 5) := by
  decide +kernel

theorem balance_after_ok {store : Store} {address : Address} {balance : Nat} (after : balanceAfter store tx address = .ok (some balance)) :
    ∃ next gas, Bank.deliverTx bankOnly none store (txPayload tx) = .ok (next, gas) ∧ Bank.balanceBig next address = .ok balance := by
  unfold balanceAfter at after
  cases delivered : Bank.deliverTx bankOnly none store (txPayload tx) with
  | error failure =>
    rw [delivered] at after
    cases after
  | ok result =>
    obtain ⟨next, gas⟩ := result
    rw [delivered] at after
    refine ⟨next, gas, rfl, ?_⟩
    have read := Except.ok.inj after
    cases balance : Bank.balanceBig next address with
    | error reason =>
      simp only [balance] at read
      cases read
    | ok found =>
      simp only [balance] at read
      rw [Option.some.inj read]

theorem other_pays_for_signer : SignedBy echoTxVerifier vexoChain aliceForged keyAccount ∧ Bank.alice ≠ keyAccount ∧
      Bank.balanceBig Bank.aliceStore Bank.alice = .ok 10 ∧
      ∃ next gas, Bank.deliverTx bankOnly none Bank.aliceStore (txPayload aliceForged) = .ok (next, gas) ∧
        Bank.balanceBig next Bank.alice = .ok 5 ∧ ¬ LowersNoOther Bank.aliceStore next keyAccount := by
  obtain ⟨verified, named, held, after, other, present, -⟩ := key_sends_evaluated
  obtain ⟨next, gas, delivered, left⟩ := balance_after_ok after
  refine ⟨verified_signer verified named present, other, held, next, gas, delivered, left, fun lowers => ?_⟩
  obtain ⟨later, read, kept⟩ := lowers Bank.alice 10 other held
  cases left.symm.trans read
  omega

theorem key_pays_itself : SignedBy echoTxVerifier vexoChain signedSend keyAccount ∧
      ∃ next gas, Bank.deliverTx bankOnly none keyStore (txPayload signedSend) = .ok (next, gas) ∧
        Bank.balanceBig next keyAccount = .ok 5 ∧ LowersNoOther keyStore next keyAccount := by
  obtain ⟨-, -, -, -, -, present, verified, named, parts, parsed, after⟩ := key_sends_evaluated
  have signed := verified_signer verified named present
  obtain ⟨next, gas, delivered, left⟩ := balance_after_ok after
  have condition := (only_owner_acts_iff echoTxVerifier vexoChain signedSend keyAccount signed).1 bankOnly none gas keyStore next _ _ _ _ _ 5
    delivered parts parsed
  refine ⟨signed, next, gas, delivered, left, condition.mpr ⟨.inl rfl, fun address balance received other same read _ => ?_⟩⟩
  have missing : ∀ key, key ≠ keyAccount → keyStore.get bankSpace key = none := by
    intro key different
    exact (get_insert_ne fun shared => different (Prod.mk.inj shared).2).trans rfl
  have receiver : Bank.balanceKey Bank.bob ≠ keyAccount := by with_unfolding_all decide
  rw [Bank.balanceBig, readBalance, missing _ (same ▸ receiver), missing _ other] at read
  cases read
  exact Nat.zero_le _

end Vexo.Ownership

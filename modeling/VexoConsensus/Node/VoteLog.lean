import VexoConsensus.Consensus.Wal
import VexoConsensus.Node.Agreement

namespace Vexo.Node

open ByteCodec Consensus OrderedMap Rfc3339 List AList

inductive Host where
  | down (file : Bytes)
  | up (wal : WAL) (localVotes : Table (Height × Round) Vote)

def Host.file : Host → Bytes
  | .down file => file
  | .up wal _ => wal.file

inductive LogCall where
  | recordProposal (now : Utc) (proposal : Proposal) (write : Write)
  | recordVote (now : Utc) (vote : Vote) (write : Write)
  | recordTimeoutVote (now : Utc) (vote : TimeoutVote) (write : Write)
  | localVote (now : Utc) (height : Height) (round : Round) (blockHash : Hash) (write : Write)
  | close
  | reopen

inductive LogOutcome where
  | silent
  | returned (result : Except Err Unit)
  | voted (result : Except Err (Vote × Bool))
  | opened (result : Except Err Unit)
deriving DecidableEq

-- localVote of a reactor that has a log.
def loggedLocalVote (voter : Voter) (wal : WAL) (localVotes : Table (Height × Round) Vote) (now : Utc) (height : Height) (round : Round)
    (blockHash : Hash) (write : Write) : Host × LogOutcome :=
  match localVotes.lookup (height, round) with
  | some vote => (.up wal localVotes, .voted (.ok (vote, vote.blockHash = blockHash)))
  | none =>
    match wal.recordedVote voter.validatorID height round with
    | .error reason => (.up wal localVotes, .voted (.error reason))
    | .ok (some recordedHash) =>
      match voter.signLocalVote height round recordedHash with
      | .error reason => (.up wal localVotes, .voted (.error reason))
      | .ok vote => (.up wal (localVotes.insert (height, round) vote), .voted (.ok (vote, recordedHash = blockHash)))
    | .ok none =>
      match voter.signLocalVote height round blockHash with
      | .error reason => (.up wal localVotes, .voted (.error reason))
      | .ok vote =>
        match wal.recordVote now vote write with
        | (wal, none) => (.down wal.file, .silent)
        | (wal, some (.error reason)) => (.up wal localVotes, .voted (.error reason))
        | (wal, some (.ok _)) => (.up wal (localVotes.insert (height, round) vote), .voted (.ok (vote, true)))

def afterWrite (localVotes : Table (Height × Round) Vote) : WAL × Returned → Host × LogOutcome
  | (wal, none) => (.down wal.file, .silent)
  | (wal, some result) => (.up wal localVotes, .returned result)

-- Without a process only reopening does anything; a process that is still there when it happens is gone.
def Host.act (voter : Voter) (host : Host) (call : LogCall) : Host × LogOutcome :=
  match host, call with
  | host, .reopen =>
    match openWAL host.file with
    | .ok wal => (.up wal ∅, .opened (.ok ()))
    | .error reason => (.down host.file, .opened (.error reason))
  | .down file, _ => (.down file, .silent)
  | .up wal localVotes, .recordProposal now proposal write => afterWrite localVotes (wal.recordProposal now proposal write)
  | .up wal localVotes, .recordVote now vote write => afterWrite localVotes (wal.recordVote now vote write)
  | .up wal localVotes, .recordTimeoutVote now vote write => afterWrite localVotes (wal.recordTimeoutVote now vote write)
  | .up wal localVotes, .localVote now height round blockHash write =>
    loggedLocalVote voter wal localVotes now height round blockHash write
  | .up wal localVotes, .close =>
    if wal.closed then (.up wal localVotes, .returned (.error .walClosed))
    else (.up { wal with closed := true } localVotes, .returned (.ok ()))

def Host.trace (voter : Voter) : Host → List LogCall → List (LogCall × LogOutcome)
  | _, [] => []
  | host, call :: rest => (call, (host.act voter call).2) :: (host.act voter call).1.trace voter rest

variable (event : WALEvent)

-- A crash leaves the whole line with its newline, or nothing of it.
def WholeLine : Write → Prop
  | .synced => True
  | .failed _ => False
  | .crashed kept => kept = 0 ∨ event.marshal.length < kept

def Careful (voter : Voter) : LogCall → Prop
  | .recordProposal now proposal write => ShortID proposal.proposer ∧ WholeLine (proposalEvent now proposal) write
  | .recordVote now vote write => ShortID vote.validatorID ∧ WholeLine (voteEvent now vote) write
  | .recordTimeoutVote now vote write => ShortID vote.validatorID ∧ WholeLine (timeoutEvent now vote) write
  | .localVote now height round blockHash write =>
    ShortID voter.validatorID ∧ WholeLine (voteEvent now ⟨height, round, blockHash, voter.validatorID, []⟩) write
  | .close | .reopen => True

variable (events : List WALEvent)

def signedIn : WAL := events.foldl WAL.apply ⟨[], ∅, ∅, false⟩

structure Extends (earlier later : WAL) : Prop where
  votes : ∀ key blockHash, earlier.votes.lookup key = some blockHash → later.votes.lookup key = some blockHash
  timeouts : ∀ key highQC, earlier.timeouts.lookup key = some highQC → later.timeouts.lookup key = some highQC

structure HostSound (voter : Voter) (events : List WALEvent) (host : Host) : Prop where
  stored : ∀ event ∈ events, Storable event
  file : host.file = written events
  hashes : ∀ key blockHash, (signedIn events).votes.lookup key = some blockHash → ∃ hash, blockHash = hashString hash
  memory : ∀ wal localVotes, host = .up wal localVotes → wal.votes = (signedIn events).votes ∧
    wal.timeouts = (signedIn events).timeouts ∧ ∀ height round vote, localVotes.lookup (height, round) = some vote →
      wal.votes.lookup (voter.validatorID, height, round) = some (hashString vote.blockHash) ∧
        voter.signLocalVote height round vote.blockHash = .ok vote

def Recorded (voter : Voter) (log : WAL) : LogCall × LogOutcome → Prop
  | (.recordVote _ vote _, .returned (.ok _)) =>
    log.votes.lookup (vote.validatorID, vote.height, vote.round) = some (hashString vote.blockHash)
  | (.recordTimeoutVote _ vote _, .returned (.ok _)) =>
    log.timeouts.lookup (vote.validatorID, vote.height, vote.round) = some (quorumCertFingerprint vote.highQC)
  | (.localVote _ height round _ _, .voted (.ok (vote, _))) =>
    log.votes.lookup (voter.validatorID, height, round) = some (hashString vote.blockHash) ∧
      voter.signLocalVote height round vote.blockHash = .ok vote
  | (.reopen, outcome) => outcome = .opened (.ok ())
  | _ => True

theorem Extends.refl (wal : WAL) : Extends wal wal := ⟨fun _ _ found => found, fun _ _ found => found⟩

theorem Extends.trans {first second third : WAL} (earlier : Extends first second) (later : Extends second third) : Extends first third :=
  ⟨fun key value found => later.votes key value (earlier.votes key value found),
    fun key value found => later.timeouts key value (earlier.timeouts key value found)⟩

theorem signed_in_append : signedIn (events ++ [event]) = (signedIn events).apply event := by
  rw [signedIn, foldl_append]
  rfl

theorem written_append : written (events ++ [event]) = written events ++ (event.marshal ++ [10]) := by
  simp [written]

theorem replayed_tables (first second : WAL) (votes : first.votes = second.votes) (timeouts : first.timeouts = second.timeouts) :
    (events.foldl WAL.apply first).votes = (events.foldl WAL.apply second).votes ∧
      (events.foldl WAL.apply first).timeouts = (events.foldl WAL.apply second).timeouts ∧
      (events.foldl WAL.apply first).file = first.file := by
  induction events generalizing first second with
  | nil => exact ⟨votes, timeouts, rfl⟩
  | cons event rest ih =>
    have same : (first.apply event).votes = (second.apply event).votes ∧ (first.apply event).timeouts = (second.apply event).timeouts ∧
        (first.apply event).file = first.file := by
      unfold WAL.apply
      split <;> simp [votes, timeouts]
    obtain ⟨sameVotes, sameTimeouts, sameFile⟩ := same
    obtain ⟨laterVotes, laterTimeouts, laterFile⟩ := ih _ _ sameVotes sameTimeouts
    exact ⟨laterVotes, laterTimeouts, laterFile.trans sameFile⟩

variable {localVotes : Table (Height × Round) Vote} {events : List WALEvent} {voter : Voter} {write : Write} {wal : WAL} {event : WALEvent}
  {host : Host} {key : ValidatorID × Height × Round} {height : Height} {round : Round}

theorem reopen_sound (sound : HostSound voter events host) : ∃ wal, openWAL host.file = .ok wal ∧ HostSound voter events (.up wal ∅) := by
  obtain ⟨votes, timeouts, file⟩ := replayed_tables events ⟨written events, ∅, ∅, false⟩ ⟨[], ∅, ∅, false⟩ rfl rfl
  refine ⟨events.foldl WAL.apply ⟨written events, ∅, ∅, false⟩, ?_, sound.stored, file, sound.hashes, ?_⟩
  · rw [sound.file, openWAL, replay_written sound.stored]
    rfl
  · intro wal localVotes same
    cases same
    refine ⟨votes, timeouts, fun height round vote cached => ?_⟩
    rw [lookup_empty] at cached
    contradiction

structure Compatible (events : List WALEvent) (event : WALEvent) : Prop where
  stored : Storable event
  kept : Extends (signedIn events) ((signedIn events).apply event)
  hash : event.type = .vote → ∃ hash, event.blockHash = hashString hash

theorem compatible_hashes (sound : HostSound voter events host) (compatible : Compatible events event) {blockHash : GoString}
    (found : ((signedIn events).apply event).votes.lookup key = some blockHash) : ∃ hash, blockHash = hashString hash := by
  unfold WAL.apply at found
  split at found
  · rename_i isVote
    rcases lookup_insert_cases found with ⟨-, rfl⟩ | ⟨-, earlier⟩
    · exact compatible.hash isVote
    · exact sound.hashes key blockHash earlier
  · exact sound.hashes key blockHash found
  · exact sound.hashes key blockHash found

inductive RecordOutcome (voter : Voter) (events : List WALEvent) (localVotes : Table (Height × Round) Vote) (event : WALEvent) :
    WAL × Returned → Prop where
  | refused (after : WAL) (reason : Err) (sound : HostSound voter events (.up after localVotes)) :
      RecordOutcome voter events localVotes event (after, some (.error reason))
  | recorded (after : WAL) (kept : Extends (signedIn events) (signedIn (events ++ [event])))
      (sound : HostSound voter (events ++ [event]) (.up after localVotes)) :
      RecordOutcome voter events localVotes event (after, some (.ok ()))
  | crashed (after : WAL) (later : List WALEvent) (kept : Extends (signedIn events) (signedIn later))
      (sound : HostSound voter later (.down after.file)) : RecordOutcome voter events localVotes event (after, none)

variable (sound : HostSound voter events (.up wal localVotes))
include sound

theorem append_outcome {next : WAL} (compatible : Compatible events event)
    (whole : WholeLine event write) (file : next.file = wal.file) (votes : next.votes = ((signedIn events).apply event).votes)
    (timeouts : next.timeouts = ((signedIn events).apply event).timeouts) :
    RecordOutcome voter events localVotes event (next.appendLocked event write) := by
  have kept : Extends (signedIn events) (signedIn (events ++ [event])) := by
    rw [signed_in_append]
    exact compatible.kept
  have base : next.file = written events := file.trans sound.file
  have stored : ∀ later ∈ events ++ [event], Storable later := by
    intro later member
    rcases mem_append.mp member with earlier | last
    · exact sound.stored later earlier
    · rw [mem_singleton.mp last]
      exact compatible.stored
  have hashes : ∀ key blockHash, (signedIn (events ++ [event])).votes.lookup key = some blockHash → ∃ hash, blockHash = hashString hash := by
    intro key blockHash found
    rw [signed_in_append] at found
    exact compatible_hashes sound compatible found
  cases write with
  | failed kept => exact absurd whole id
  | synced =>
    refine .recorded _ kept ⟨stored, ?_, hashes, ?_⟩
    · rw [written_append, ← base]
      rfl
    · rintro later cache ⟨⟩
      rw [signed_in_append]
      refine ⟨votes, timeouts, fun height round vote cached => ?_⟩
      obtain ⟨sameVotes, -, earlier⟩ := sound.memory wal localVotes rfl
      obtain ⟨recorded, signed⟩ := earlier height round vote cached
      refine ⟨?_, signed⟩
      rw [sameVotes] at recorded
      exact votes ▸ compatible.kept.votes _ _ recorded
  | crashed left =>
    rcases whole with rfl | longer
    · refine .crashed _ events (.refl _) ⟨sound.stored, ?_, sound.hashes, fun _ _ same => nomatch same⟩
      simp [Host.file, base]
    · refine .crashed _ _ kept ⟨stored, ?_, hashes, fun _ _ same => nomatch same⟩
      rw [Host.file, take_of_length_le (by rw [length_append, length_singleton]; omega), base, written_append]

omit sound in
theorem insert_keeps {table : SignedTable} {value : GoString}
    (free : (table.lookup key).filter (fun previous => decide (previous ≠ value)) = none) (other : ValidatorID × Height × Round)
    (found : GoString) (present : table.lookup other = some found) : (table.insert key value).lookup other = some found := by
  by_cases same : other = key
  · subst same
    rw [present] at free
    have equal : found = value := by
      by_contra different
      simp [Option.filter, different] at free
    rw [equal, lookup_insert]
  · rw [lookup_insert_ne same, present]

variable (validatorID : ValidatorID) (now : Utc)

theorem record_proposal_outcome {proposal : Proposal} (short : ShortID proposal.proposer) (whole : WholeLine (proposalEvent now proposal) write) :
    RecordOutcome voter events localVotes (proposalEvent now proposal) (wal.recordProposal now proposal write) := by
  obtain ⟨votes, timeouts, -⟩ := sound.memory wal localVotes rfl
  unfold WAL.recordProposal
  split
  · exact .refused wal _ sound
  · exact append_outcome sound ⟨proposal_event_storable now short, .refl _, nofun⟩ whole rfl votes timeouts

variable {vote : Vote}

theorem record_vote_outcome (short : ShortID vote.validatorID) (whole : WholeLine (voteEvent now vote) write) :
    RecordOutcome voter events localVotes (voteEvent now vote) (wal.recordVote now vote write) := by
  obtain ⟨votes, timeouts, -⟩ := sound.memory wal localVotes rfl
  unfold WAL.recordVote
  split
  · exact .refused wal _ sound
  · simp only
    split
    · exact .refused wal _ sound
    · rename_i free
      rw [votes] at free
      refine append_outcome sound ⟨vote_event_storable now short, ⟨insert_keeps free, fun _ _ found => found⟩, fun _ => ⟨_, rfl⟩⟩ whole rfl
        ?_ timeouts
      rw [votes]
      rfl

theorem record_timeout_outcome {vote : TimeoutVote} (short : ShortID vote.validatorID) (whole : WholeLine (timeoutEvent now vote) write) :
    RecordOutcome voter events localVotes (timeoutEvent now vote) (wal.recordTimeoutVote now vote write) := by
  obtain ⟨votes, timeouts, -⟩ := sound.memory wal localVotes rfl
  unfold WAL.recordTimeoutVote
  split
  · exact .refused wal _ sound
  · simp only
    split
    · exact .refused wal _ sound
    · rename_i free
      rw [timeouts] at free
      refine append_outcome sound ⟨timeout_event_storable now short, ⟨fun _ _ found => found, insert_keeps free⟩, nofun⟩ whole rfl votes ?_
      rw [timeouts]
      rfl

theorem recorded_vote_hash {validatorID : ValidatorID} {hash : Hash} (recorded : wal.recordedVote validatorID height round = .ok (some hash)) :
    (signedIn events).votes.lookup (validatorID, height, round) = some (hashString hash) := by
  obtain ⟨votes, -, -⟩ := sound.memory wal localVotes rfl
  unfold WAL.recordedVote at recorded
  split at recorded
  · contradiction
  · rw [votes] at recorded
    cases found : (signedIn events).votes.lookup (validatorID, height, round) with
    | none =>
      simp only [found] at recorded
      cases recorded
    | some encoded =>
      obtain ⟨original, rfl⟩ := sound.hashes _ _ found
      simp only [found, hashString, Hex.decode_encode, original.size, dif_pos] at recorded
      cases recorded
      rfl

omit sound in
theorem signed_vote_fields {blockHash : Hash} (signed : voter.signLocalVote height round blockHash = .ok vote) :
    vote.height = height ∧ vote.round = round ∧ vote.blockHash = blockHash ∧ vote.validatorID = voter.validatorID := by
  simp only [Voter.signLocalVote, Checks.bind_ok_iff] at signed
  obtain ⟨_, _, _, _, returned⟩ := signed
  cases returned
  exact ⟨rfl, rfl, rfl, rfl⟩

theorem cache_sound (recorded : (signedIn events).votes.lookup (voter.validatorID, height, round) = some (hashString vote.blockHash))
    (signed : voter.signLocalVote height round vote.blockHash = .ok vote) :
    HostSound voter events (.up wal (localVotes.insert (height, round) vote)) := by
  refine ⟨sound.stored, sound.file, sound.hashes, ?_⟩
  rintro later cache ⟨⟩
  obtain ⟨votes, timeouts, earlier⟩ := sound.memory wal localVotes rfl
  refine ⟨votes, timeouts, fun otherHeight otherRound other cached => ?_⟩
  rcases lookup_insert_cases cached with ⟨same, rfl⟩ | ⟨-, old⟩
  · cases same
    exact ⟨votes ▸ recorded, signed⟩
  · exact earlier otherHeight otherRound other old

structure StepSound (voter : Voter) (events : List WALEvent) (call : LogCall) (result : Host × LogOutcome) (later : List WALEvent) : Prop where
  kept : Extends (signedIn events) (signedIn later)
  sound : HostSound voter later result.1
  recorded : Recorded voter (signedIn later) (call, result.2)

omit sound in
theorem after_write_sound {result : WAL × Returned} {call : LogCall} (outcome : RecordOutcome voter events localVotes event result)
    (silent : ∀ log, Recorded voter log (call, .silent)) (refused : ∀ log reason, Recorded voter log (call, .returned (.error reason)))
    (done : Recorded voter (signedIn (events ++ [event])) (call, .returned (.ok ()))) :
    ∃ later, StepSound voter events call (afterWrite localVotes result) later := by
  cases outcome with
  | refused after reason sound => exact ⟨events, .refl _, sound, refused _ _⟩
  | recorded after kept sound => exact ⟨events ++ [event], kept, sound, done⟩
  | crashed after later kept sound => exact ⟨later, kept, sound, silent _⟩

theorem logged_vote_sound (height : Height) (round : Round) (blockHash : Hash)
    (short : ShortID voter.validatorID) (whole : WholeLine (voteEvent now ⟨height, round, blockHash, voter.validatorID, []⟩) write) :
    ∃ later, StepSound voter events (.localVote now height round blockHash write)
      (loggedLocalVote voter wal localVotes now height round blockHash write) later := by
  unfold loggedLocalVote
  cases cached : localVotes.lookup (height, round) with
  | some vote =>
    obtain ⟨votes, -, earlier⟩ := sound.memory wal localVotes rfl
    obtain ⟨recorded, signed⟩ := earlier height round vote cached
    exact ⟨events, .refl _, sound, votes ▸ recorded, signed⟩
  | none =>
    simp only
    cases recalled : wal.recordedVote voter.validatorID height round with
    | error reason => exact ⟨events, .refl _, sound, trivial⟩
    | ok found =>
      cases found with
      | some recordedHash =>
        have recorded := recorded_vote_hash sound recalled
        simp only
        cases signed : voter.signLocalVote height round recordedHash with
        | error reason => exact ⟨events, .refl _, sound, trivial⟩
        | ok vote =>
          obtain ⟨-, -, rfl, -⟩ := signed_vote_fields signed
          exact ⟨events, .refl _, cache_sound sound recorded signed, recorded, signed⟩
      | none =>
        simp only
        cases signed : voter.signLocalVote height round blockHash with
        | error reason => exact ⟨events, .refl _, sound, trivial⟩
        | ok vote =>
          obtain ⟨sameHeight, sameRound, sameHash, sameID⟩ := signed_vote_fields signed
          have outcome := @record_vote_outcome localVotes events voter write wal sound now vote (sameID ▸ short)
            (by simpa [voteEvent, sameHeight, sameRound, sameHash, sameID] using whole)
          simp only
          generalize wal.recordVote now vote write = result at outcome ⊢
          cases outcome with
          | refused after reason later => exact ⟨events, .refl _, later, trivial⟩
          | crashed after later kept sound => exact ⟨later, kept, sound, trivial⟩
          | recorded after kept sound =>
            have recorded : (signedIn (events ++ [voteEvent now vote])).votes.lookup (voter.validatorID, height, round) =
                some (hashString vote.blockHash) := by
              rw [signed_in_append, ← sameID, ← sameHeight, ← sameRound]
              exact lookup_insert _
            rw [← sameHash] at signed
            exact ⟨_, kept, cache_sound sound recorded signed, recorded, signed⟩

omit sound

theorem act_sound (sound : HostSound voter events host) {call : LogCall}
    (careful : Careful voter call) : ∃ later, StepSound voter events call (host.act voter call) later := by
  by_cases reopening : call = .reopen
  · subst reopening
    obtain ⟨wal, opened, next⟩ := reopen_sound sound
    have acted : host.act voter .reopen = (.up wal ∅, .opened (.ok ())) := by
      simp only [Host.act, opened]
    rw [acted]
    exact ⟨events, .refl _, next, rfl⟩
  cases host with
  | down file => cases call <;> first | exact absurd rfl reopening | exact ⟨events, .refl _, sound, trivial⟩
  | up wal localVotes =>
    cases call with
    | reopen => exact absurd rfl reopening
    | recordProposal now proposal write =>
      exact after_write_sound (record_proposal_outcome sound now careful.1 careful.2) (fun _ => trivial) (fun _ _ => trivial) trivial
    | recordVote now vote write =>
      refine after_write_sound (record_vote_outcome sound now careful.1 careful.2) (fun _ => trivial) (fun _ _ => trivial) ?_
      rw [signed_in_append]
      exact lookup_insert _
    | recordTimeoutVote now vote write =>
      refine after_write_sound (record_timeout_outcome sound now careful.1 careful.2) (fun _ => trivial) (fun _ _ => trivial) ?_
      rw [signed_in_append]
      exact lookup_insert _
    | localVote now height round blockHash write => exact logged_vote_sound sound now height round blockHash careful.1 careful.2
    | close =>
      simp only [Host.act]
      split
      · exact ⟨events, .refl _, sound, trivial⟩
      · refine ⟨events, .refl _, ⟨sound.stored, sound.file, sound.hashes, ?_⟩, trivial⟩
        rintro later cache ⟨⟩
        exact sound.memory wal localVotes rfl

theorem recorded_mono {earlier later : WAL} (kept : Extends earlier later) {entry : LogCall × LogOutcome}
    (recorded : Recorded voter earlier entry) : Recorded voter later entry := by
  obtain ⟨call, outcome⟩ := entry
  cases call with
  | recordProposal now proposal write | close => cases outcome <;> trivial
  | reopen => exact recorded
  | recordVote now vote write =>
    cases outcome with
    | returned result =>
      cases result with
      | ok done => exact kept.votes _ _ recorded
      | error reason => trivial
    | _ => trivial
  | recordTimeoutVote now vote write =>
    cases outcome with
    | returned result =>
      cases result with
      | ok done => exact kept.timeouts _ _ recorded
      | error reason => trivial
    | _ => trivial
  | localVote now height round blockHash write =>
    cases outcome with
    | voted result =>
      cases result with
      | ok released => exact ⟨kept.votes _ _ recorded.1, recorded.2⟩
      | error reason => trivial
    | _ => trivial

theorem trace_recorded {calls : List LogCall} (sound : HostSound voter events host) (careful : ∀ call ∈ calls, Careful voter call) :
    ∃ log, Extends (signedIn events) log ∧ ∀ entry ∈ host.trace voter calls, Recorded voter log entry := by
  induction calls generalizing events host with
  | nil => exact ⟨signedIn events, .refl _, fun entry member => absurd member not_mem_nil⟩
  | cons call rest ih =>
    obtain ⟨later, step⟩ := act_sound sound (careful call mem_cons_self)
    obtain ⟨log, kept, recorded⟩ := ih step.sound (forall_mem_cons.mp careful).2
    refine ⟨log, step.kept.trans kept, fun entry member => ?_⟩
    rcases mem_cons.mp member with rfl | tail
    · exact recorded_mono kept step.recorded
    · exact recorded entry tail

theorem host_sound_new (voter : Voter) : HostSound voter [] (.down []) := by
  refine ⟨nofun, rfl, fun key blockHash found => ?_, fun _ _ same => nomatch same⟩
  rw [show (signedIn []).votes = ∅ from rfl, lookup_empty] at found
  contradiction

theorem log_prevents_double_signing (voter : Voter) (calls : List LogCall) (careful : ∀ call ∈ calls, Careful voter call)
    (distinct : ∀ now vote write now' vote' write', .recordTimeoutVote now vote write ∈ calls → .recordTimeoutVote now' vote' write' ∈ calls →
      vote.validatorID = vote'.validatorID → vote.height = vote'.height → vote.round = vote'.round → vote.highQC.height = vote'.highQC.height → vote.highQC.round = vote'.highQC.round →
      vote.highQC.blockHash = vote'.highQC.blockHash → vote.highQC = vote'.highQC) :
    let trace := (Host.down []).trace voter calls
    (∀ now vote write now' vote' write', (.recordVote now vote write, .returned (.ok ())) ∈ trace →
      (.recordVote now' vote' write', .returned (.ok ())) ∈ trace → vote.validatorID = vote'.validatorID → vote.height = vote'.height →
      vote.round = vote'.round → vote.blockHash = vote'.blockHash) ∧
    (∀ now vote write now' vote' write', (.recordTimeoutVote now vote write, .returned (.ok ())) ∈ trace →
      (.recordTimeoutVote now' vote' write', .returned (.ok ())) ∈ trace → vote.validatorID = vote'.validatorID →
      vote.height = vote'.height → vote.round = vote'.round → vote.highQC = vote'.highQC) ∧
    (∀ outcome, (.reopen, outcome) ∈ trace → outcome = .opened (.ok ())) ∧
    ∀ now now' height round blockHash blockHash' write write' vote vote' selected selected',
      (.localVote now height round blockHash write, .voted (.ok (vote, selected))) ∈ trace →
      (.localVote now' height round blockHash' write', .voted (.ok (vote', selected'))) ∈ trace → vote = vote' := by
  intro trace
  obtain ⟨log, -, recorded⟩ := trace_recorded (host_sound_new voter) careful
  have called : ∀ {host : Host} {calls : List LogCall} {call : LogCall} {outcome : LogOutcome},
      (call, outcome) ∈ host.trace voter calls → call ∈ calls := by
    intro host calls
    induction calls generalizing host with
    | nil => exact fun member => absurd member not_mem_nil
    | cons first rest ih =>
      intro call outcome member
      rcases mem_cons.mp member with same | tail
      · cases same
        exact mem_cons_self ..
      · exact mem_cons_of_mem _ (ih tail)
  refine ⟨?_, ?_, fun outcome member => recorded _ member, ?_⟩
  · intro now vote write now' vote' write' first second sameID sameHeight sameRound
    have left : log.votes.lookup (vote.validatorID, vote.height, vote.round) = _ := recorded _ first
    have right : log.votes.lookup (vote'.validatorID, vote'.height, vote'.round) = _ := recorded _ second
    rw [← sameID, ← sameHeight, ← sameRound, left] at right
    exact hash_string_injective (Option.some.inj right)
  · intro now vote write now' vote' write' first second sameID sameHeight sameRound
    have left : log.timeouts.lookup (vote.validatorID, vote.height, vote.round) = _ := recorded _ first
    have right : log.timeouts.lookup (vote'.validatorID, vote'.height, vote'.round) = _ := recorded _ second
    rw [← sameID, ← sameHeight, ← sameRound, left] at right
    obtain ⟨height, round, hash⟩ := fingerprint_injective (Option.some.inj right)
    exact distinct now vote write now' vote' write' (called first) (called second) sameID sameHeight sameRound
      height round hash
  · intro now now' height round blockHash blockHash' write write' vote vote' selected selected' first second
    obtain ⟨left, signed⟩ := recorded _ first
    obtain ⟨right, signed'⟩ := recorded _ second
    rw [left] at right
    rw [hash_string_injective (Option.some.inj right), signed'] at signed
    exact (Except.ok.inj signed).symm

def noon : Utc := ⟨2026, 1, 1, 12, 0, 0, 0, by decide, by decide, by decide, by decide, by decide⟩

def hashOf (byte : UInt8) : Hash := ⟨List.replicate 32 byte, rfl⟩

def voterNamed : Voter := ⟨validatorID, fun _ => .ok [1]⟩

def voteOf (byte : UInt8) : Vote := ⟨1, 0, hashOf byte, validatorID, [1]⟩

def timeoutOf (signature : Signature) : TimeoutVote :=
  ⟨1, 0, validatorID, ⟨1, 0, hashOf 1, utf8 "a", signature, 1⟩, [1]⟩

def outcomes (calls : List LogCall) : List LogOutcome :=
  ((Host.down []).trace (voterNamed validatorID) calls).map Prod.snd

-- In turn: a torn line stops the log from being opened again; an ID that is not UTF-8 comes back changed, so two votes succeed and
-- localVote releases both; a vote whose write failed is released from memory and forgotten; certificates with other signatures
-- have one fingerprint.
theorem log_misses_double_signs : hashOf 1 ≠ hashOf 2 ∧ outcomes (utf8 "a") [.reopen, .recordVote noon (voteOf (utf8 "a") 1) (.crashed 20), .reopen] =
      [.opened (.ok ()), .silent, .opened (.error .jsonSyntax)] ∧
    outcomes [255] [.reopen, .recordVote noon (voteOf [255] 1) .synced, .reopen, .recordVote noon (voteOf [255] 2) .synced] =
      [.opened (.ok ()), .returned (.ok ()), .opened (.ok ()), .returned (.ok ())] ∧
    outcomes [255] [.reopen, .localVote noon 1 0 (hashOf 1) .synced, .reopen, .localVote noon 1 0 (hashOf 2) .synced] =
      [.opened (.ok ()), .voted (.ok (voteOf [255] 1, true)), .opened (.ok ()), .voted (.ok (voteOf [255] 2, true))] ∧
    outcomes (utf8 "a") [.reopen, .localVote noon 1 0 (hashOf 1) (.failed 0), .localVote noon 1 0 (hashOf 1) .synced, .reopen,
        .localVote noon 1 0 (hashOf 2) .synced] =
      [.opened (.ok ()), .voted (.error .writeFailed), .voted (.ok (voteOf (utf8 "a") 1, true)), .opened (.ok ()),
        .voted (.ok (voteOf (utf8 "a") 2, true))] ∧
    outcomes (utf8 "a") [.reopen, .recordTimeoutVote noon (timeoutOf (utf8 "a") [1]) .synced,
        .recordTimeoutVote noon (timeoutOf (utf8 "a") [2]) .synced] = [.opened (.ok ()), .returned (.ok ()), .returned (.ok ())] ∧
    (timeoutOf (utf8 "a") [1]).highQC ≠ (timeoutOf (utf8 "a") [2]).highQC := by
  decide +kernel

def carefulRun : List LogCall :=
  [.reopen, .localVote noon 1 0 (hashOf 1) .synced, .recordTimeoutVote noon (timeoutOf (utf8 "a") [1]) .synced,
    .recordVote noon (voteOf (utf8 "b") 1) (.crashed 0), .reopen, .localVote noon 1 0 (hashOf 2) .synced,
    .recordVote noon (voteOf (utf8 "a") 2) .synced, .recordVote noon (voteOf (utf8 "a") 1) .synced]

theorem careful_run_signs_once : let trace := (Host.down []).trace (voterNamed (utf8 "a")) carefulRun
    trace.map Prod.snd = [.opened (.ok ()), .voted (.ok (voteOf (utf8 "a") 1, true)), .returned (.ok ()), .silent, .opened (.ok ()),
      .voted (.ok (voteOf (utf8 "a") 1, false)),
      .returned (.error (.doubleSignDetected (utf8 "a") 1 0 (hashString (hashOf 1)) (hashString (hashOf 2)))), .returned (.ok ())] ∧
    (∀ outcome, (.reopen, outcome) ∈ trace → outcome = .opened (.ok ())) ∧
    ∀ vote vote' selected selected', (.localVote noon 1 0 (hashOf 1) .synced, .voted (.ok (vote, selected))) ∈ trace →
      (.localVote noon 1 0 (hashOf 2) .synced, .voted (.ok (vote', selected'))) ∈ trace → vote = vote' := by
  have short : ∀ name ∈ [utf8 "a", utf8 "b"], ShortID name := by
    have plain : ∀ name ∈ [utf8 "a", utf8 "b"], (∀ byte ∈ name, byte < 128) ∧ name.length ≤ 8192 := by decide +kernel
    intro name member
    obtain ⟨small, length⟩ := plain name member
    exact ⟨Utf8.valid_small small, length⟩
  have first := short _ mem_cons_self
  have second := short _ (mem_cons_of_mem _ mem_cons_self)
  have careful : ∀ call ∈ carefulRun, Careful (voterNamed (utf8 "a")) call := by
    intro call member
    simp only [carefulRun, mem_cons, not_mem_nil, or_false] at member
    rcases member with rfl | rfl | rfl | rfl | rfl | rfl | rfl | rfl
    · trivial
    · exact ⟨first, trivial⟩
    · exact ⟨first, trivial⟩
    · exact ⟨second, .inl rfl⟩
    · trivial
    · exact ⟨first, trivial⟩
    · exact ⟨first, trivial⟩
    · exact ⟨first, trivial⟩
  obtain ⟨-, -, opened, released⟩ := log_prevents_double_signing (voterNamed (utf8 "a")) carefulRun careful (by
    intro now vote write now' vote' write' left right
    simp only [carefulRun, mem_cons, not_mem_nil, or_false, reduceCtorEq, false_or, LogCall.recordTimeoutVote.injEq] at left right
    rw [left.2.1, right.2.1]
    exact fun _ _ _ _ _ _ => rfl)
  exact ⟨by decide +kernel, opened, fun vote vote' selected selected' => released _ _ _ _ _ _ _ _ vote vote' selected selected'⟩

end Vexo.Node

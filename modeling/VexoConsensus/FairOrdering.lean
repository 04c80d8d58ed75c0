import Mathlib.Data.List.Dedup
import Mathlib.Data.List.Lex
import Mathlib.Data.List.Perm.Basic
import Mathlib.Data.List.Sort
import Mathlib.Data.Prod.Lex
import VexoConsensus.Types

namespace Vexo.FairOrdering

open ByteCodec List

section

-- mempoolTxPayload opens a signed envelope; what it returns for a transaction is a parameter of the ordering.
abbrev TxPayload := Tx → Tx

def cut (separator : UInt8) (text : GoString) : Option (GoString × GoString) :=
  if separator ∈ text then some (text.takeWhile (· ≠ separator), (text.dropWhile (· ≠ separator)).drop 1) else none

def tagValue (payload : TxPayload) (key : GoString) (tx : Tx) : Option GoString :=
  ((payload tx).splitOn 58).findSome? fun part =>
    match cut 61 part with
    | some (tagKey, tagValue) => if tagKey = key then some tagValue else none
    | none => none

def parseUint (text : GoString) : Option UInt64 :=
  if text ≠ [] ∧ text.all (fun digit => 48 ≤ digit ∧ digit ≤ 57) then
    let value := text.foldl (fun total digit => total * 10 + (digit.toNat - 48)) 0
    if value < 2 ^ 64 then some (UInt64.ofNat value) else none
  else none

variable (payload : TxPayload)

def txSigner (tx : Tx) : Option GoString := tagValue payload (utf8 "signer") tx

def txNonce (tx : Tx) : Option UInt64 := (tagValue payload (utf8 "nonce") tx).bind parseUint

def hashTxWithSalt (salt : Bytes) (tx : Tx) : Hash := Sha256.sum256 (salt ++ tx)

def heightSalt (chainID : GoString) (height : Height) : Bytes :=
  (Sha256.sum256 (chainID ++ 0 :: putUint64 height)).bytes

-- transactionQueue.Less: by salted hash, then by the transaction itself.
def before (salt : Bytes) (left right : Tx) : Bool :=
  let leftHash := hashTxWithSalt salt left
  let rightHash := hashTxWithSalt salt right
  if leftHash ≠ rightHash then leftHash.bytes < rightHash.bytes else left < right

def nonceBefore (salt : Bytes) (left right : Tx) : Bool :=
  let leftNonce := (txNonce payload left).getD 0
  let rightNonce := (txNonce payload right).getD 0
  if leftNonce ≠ rightNonce then leftNonce < rightNonce else before salt left right

def chained (tx : Tx) : Bool := (txSigner payload tx).isSome && (txNonce payload tx).isSome

variable (txs : List Tx)

def transactionChains (salt : Bytes) : List (List Tx) :=
  let loose := (txs.filter fun tx => !chained payload tx).map fun tx => [tx]
  let bySigner := txs.filter (chained payload)
  let signers := ((bySigner.filterMap (txSigner payload)).dedup).insertionSort (· ≤ ·)
  loose ++ signers.map fun signer =>
    (bySigner.filter fun tx => txSigner payload tx = some signer).insertionSort fun left right =>
      !nonceBefore payload salt right left

-- heap.Pop takes a least head of the chains; equal heads are equal transactions, so which one is taken is not visible.
def popLeast (salt : Bytes) : List (List Tx) → Option (Tx × List (List Tx))
  | [] => none
  | [] :: rest => popLeast salt rest
  | (tx :: later) :: rest =>
    match popLeast salt rest with
    | none => some (tx, later :: rest)
    | some (other, rest') => if before salt other tx then some (other, (tx :: later) :: rest') else some (tx, later :: rest)

def drain (salt : Bytes) : Nat → List (List Tx) → List Tx
  | 0, _ => []
  | count + 1, chains =>
    match popLeast salt chains with
    | none => []
    | some (tx, chains) => tx :: drain salt count chains

def sortTxsWithSalt (salt : Bytes) : List Tx :=
  drain salt txs.length (transactionChains payload txs salt)

def isOrderedWithSalt (salt : Bytes) : Bool := txs = sortTxsWithSalt payload txs salt

end

variable (payload : TxPayload) {chains rest chains' : List (List Tx)} (txs : List Tx)

theorem sorted_signers_eq {signers signers' : List GoString} (perm : signers.Perm signers') :
    signers.dedup.insertionSort (· ≤ ·) = signers'.dedup.insertionSort (· ≤ ·) := by
  have sorted := (perm_insertionSort (· ≤ ·) signers.dedup).trans
    ((perm.dedup).trans (perm_insertionSort (· ≤ ·) signers'.dedup).symm)
  exact sorted.eq_of_pairwise' (pairwise_insertionSort _ _) (pairwise_insertionSort _ _)

theorem flat_map_groups_perm {Key : Type} [DecidableEq Key] (key : Tx → Option Key) (keys : List Key) (distinct : keys.Nodup) (txs : List Tx)
    (covered : ∀ tx ∈ txs, ∃ value ∈ keys, key tx = some value) :
    (keys.flatMap fun value => txs.filter fun tx => key tx = some value).Perm txs := by
  induction keys generalizing txs with
  | nil =>
    have empty : txs = [] := eq_nil_iff_forall_not_mem.mpr fun tx member => by simpa using covered tx member
    rw [empty]
    rfl
  | cons value rest ih =>
    obtain ⟨fresh, distinct⟩ := nodup_cons.mp distinct
    have remaining : ∀ tx ∈ txs.filter (fun tx => !decide (key tx = some value)), ∃ other ∈ rest, key tx = some other := by
      intro tx member
      obtain ⟨member, different⟩ := mem_filter.mp member
      obtain ⟨other, inside, found⟩ := covered tx member
      rcases mem_cons.mp inside with rfl | inside
      · simp [found] at different
      · exact ⟨other, inside, found⟩
    have same : (rest.flatMap fun other => txs.filter fun tx => key tx = some other) =
        rest.flatMap fun other => (txs.filter fun tx => !decide (key tx = some value)).filter fun tx => key tx = some other := by
      refine flatMap_congr fun other inside => ?_
      rw [filter_filter]
      refine filter_congr fun tx _ => ?_
      by_cases found : key tx = some other
      · have apart : other ≠ value := fun same => fresh (same ▸ inside)
        simp [found, apart]
      · simp [found]
    rw [flatMap_cons, same]
    exact ((ih distinct _ remaining).append_left _).trans (filter_append_perm _ txs)

variable (salt : Bytes)

theorem transaction_chains_flatten : (transactionChains payload txs salt).flatten.Perm txs := by
  have grouped : ((((txs.filter (chained payload)).filterMap (txSigner payload)).dedup.insertionSort (· ≤ ·)).flatMap
      fun signer => (txs.filter (chained payload)).filter fun tx => txSigner payload tx = some signer).Perm
      (txs.filter (chained payload)) := by
    refine flat_map_groups_perm (txSigner payload) _ ?_ _ ?_
    · exact (perm_insertionSort _ _).nodup_iff.mpr (nodup_dedup _)
    · intro tx member
      have both := (mem_filter.mp member).2
      unfold chained at both
      obtain ⟨signer, found⟩ := Option.isSome_iff_exists.mp (Bool.and_eq_true_iff.mp both).1
      refine ⟨signer, ?_, found⟩
      rw [mem_insertionSort, mem_dedup]
      exact mem_filterMap.mpr ⟨tx, member, found⟩
  simp only [transactionChains, flatten_append, ← flatMap_def]
  rw [flatMap_singleton']
  refine (Perm.append_left _ ((Perm.flatMap_left _ fun signer _ => perm_insertionSort _ _).trans grouped)).trans ?_
  exact perm_append_comm.trans (filter_append_perm _ txs)

local instance byteOrder : LinearOrder UInt8 where
  le_refl := UInt8.le_refl
  le_trans _ _ _ := UInt8.le_trans
  le_antisymm _ _ := UInt8.le_antisymm
  le_total := UInt8.le_total
  lt_iff_le_not_ge left right := by
    rw [UInt8.lt_iff_toNat_lt, UInt8.le_iff_toNat_le, UInt8.le_iff_toNat_le]
    omega
  toDecidableLE := inferInstance

local instance nonceOrder : LinearOrder UInt64 where
  le_refl := UInt64.le_refl
  le_trans _ _ _ := UInt64.le_trans
  le_antisymm _ _ := UInt64.le_antisymm
  le_total := UInt64.le_total
  lt_iff_le_not_ge left right := by
    rw [UInt64.lt_iff_toNat_lt, UInt64.le_iff_toNat_le, UInt64.le_iff_toNat_le]
    omega
  toDecidableLE := inferInstance

def rank (tx : Tx) : List UInt8 ×ₗ List UInt8 := toLex ((hashTxWithSalt salt tx).bytes, tx)

def nonceRank (payload : TxPayload) (salt : Bytes) (tx : Tx) : UInt64 ×ₗ (List UInt8 ×ₗ List UInt8) :=
  toLex ((txNonce payload tx).getD 0, rank salt tx)

theorem rank_injective : Function.Injective (rank salt) := by
  intro left right same
  exact congrArg (fun key => (ofLex key).2) same

theorem before_iff_rank (left right : Tx) : before salt left right = true ↔ rank salt left < rank salt right := by
  have hashes : hashTxWithSalt salt left = hashTxWithSalt salt right ↔
      (hashTxWithSalt salt left).bytes = (hashTxWithSalt salt right).bytes := ⟨congrArg _, digest_bytes_inj⟩
  unfold before rank
  rw [Prod.Lex.toLex_lt_toLex]
  by_cases same : hashTxWithSalt salt left = hashTxWithSalt salt right
  · simp [same]
  · simp [same, mt hashes.mpr same]

theorem nonce_before_iff_rank (left right : Tx) :
    nonceBefore payload salt left right = true ↔ nonceRank payload salt left < nonceRank payload salt right := by
  unfold nonceBefore nonceRank
  rw [Prod.Lex.toLex_lt_toLex]
  by_cases same : (txNonce payload left).getD 0 = (txNonce payload right).getD 0
  · simp [same, before_iff_rank]
  · simp [same]

variable {others : List (List Tx)} {tx : Tx} {txs' : List Tx}

theorem nonce_rank_injective : Function.Injective (nonceRank payload salt) := by
  intro left right same
  exact rank_injective salt (congrArg (fun key => (ofLex key).2) same)

theorem chain_sorted (txs : List Tx) : (txs.insertionSort fun left right => !nonceBefore payload salt right left).Pairwise
      fun left right => nonceRank payload salt left ≤ nonceRank payload salt right := by
  have ordered : ∀ left right, (!nonceBefore payload salt right left) = true ↔ nonceRank payload salt left ≤ nonceRank payload salt right := by
    intro left right
    rw [Bool.not_eq_true', ← not_lt, ← nonce_before_iff_rank, Bool.not_eq_true]
  have total : Std.Total fun left right => (!nonceBefore payload salt right left) = true :=
    ⟨fun left right => by simpa only [ordered] using le_total (nonceRank payload salt left) (nonceRank payload salt right)⟩
  have transitive : IsTrans Tx fun left right => (!nonceBefore payload salt right left) = true :=
    ⟨fun first second third => by simpa only [ordered] using le_trans⟩
  exact (pairwise_insertionSort _ txs).imp (ordered _ _).mp

theorem sorted_chain_eq {txs : List Tx} (perm : txs.Perm txs') : (txs.insertionSort fun left right => !nonceBefore payload salt right left) =
      txs'.insertionSort fun left right => !nonceBefore payload salt right left := by
  refine Perm.eq_of_pairwise (fun left right _ _ before after => ?_) (chain_sorted payload salt txs) (chain_sorted payload salt txs')
    ((perm_insertionSort _ txs).trans (perm.trans (perm_insertionSort _ txs').symm))
  exact nonce_rank_injective payload salt (le_antisymm before after)

theorem transaction_chains_perm {txs : List Tx} (perm : txs.Perm txs') :
    (transactionChains payload txs salt).Perm (transactionChains payload txs' salt) := by
  have signed := perm.filter (chained payload)
  simp only [transactionChains]
  rw [sorted_signers_eq (signed.filterMap (txSigner payload))]
  refine ((perm.filter _).map _).append (Perm.of_eq ?_)
  refine map_congr_left fun signer _ => ?_
  exact sorted_chain_eq payload salt (signed.filter _)

def Apart (first second : List Tx) : Prop := List.Disjoint first second ∨ ∃ tx, first = [tx] ∧ second = [tx]

theorem apart_symm {first second : List Tx} (apart : Apart first second) : Apart second first := by
  rcases apart with disjoint | ⟨tx, rfl, rfl⟩
  · exact .inl disjoint.symm
  · exact .inr ⟨tx, rfl, rfl⟩

variable {later : List Tx}

theorem apart_tail {other : List Tx} (apart : Apart (tx :: later) other) : List.Disjoint later other := by
  rcases apart with disjoint | ⟨copy, single, rfl⟩
  · exact disjoint_of_disjoint_cons_left disjoint
  · rw [(List.cons.inj single).2]
    exact disjoint_nil_left _

theorem transaction_chains_pairwise {Cross : List Tx → List Tx → Prop}
    (loose : ∀ first second, chained payload first = false → chained payload second = false → Cross [first] [second])
    (mixed : ∀ first chain, chained payload first = false → (∀ tx ∈ chain, chained payload tx = true) → Cross [first] chain)
    (signed : ∀ chain chain' signer signer', signer ≠ signer' → (∀ tx ∈ chain, txSigner payload tx = some signer) →
      (∀ tx ∈ chain', txSigner payload tx = some signer') → Cross chain chain') : (transactionChains payload txs salt).Pairwise Cross := by
  have free : ∀ {tx}, tx ∈ txs.filter (fun tx => !chained payload tx) → chained payload tx = false := fun listed => by
    simpa using (mem_filter.mp listed).2
  simp only [transactionChains, pairwise_append, pairwise_map]
  refine ⟨Pairwise.imp_of_mem (fun inFirst inSecond _ => loose _ _ (free inFirst) (free inSecond)) (pairwise_of_forall fun _ _ => trivial), ?_, ?_⟩
  · refine ((perm_insertionSort _ _).nodup_iff.mpr (nodup_dedup _)).imp fun different => signed _ _ _ _ different ?_ ?_
    all_goals
      intro tx listed
      exact of_decide_eq_true (mem_filter.mp ((mem_insertionSort _).mp listed)).2
  · intro single inLoose chain inSigned
    obtain ⟨first, listed, rfl⟩ := mem_map.mp inLoose
    obtain ⟨signer, -, rfl⟩ := mem_map.mp inSigned
    refine mixed first _ (free listed) fun tx member => ?_
    exact (mem_filter.mp (mem_filter.mp ((mem_insertionSort _).mp member)).1).2

theorem transaction_chains_apart : (transactionChains payload txs salt).Pairwise Apart := by
  apply transaction_chains_pairwise
  · intro first second _ _
    by_cases same : first = second
    · exact .inr ⟨first, rfl, same ▸ rfl⟩
    · exact .inl (singleton_disjoint.mpr fun member => same (mem_singleton.mp member))
  · intro first chain free signed
    exact .inl (singleton_disjoint.mpr fun member => Bool.noConfusion (free.symm.trans (signed first member)))
  · intro chain chain' signer signer' different named named'
    exact .inl fun tx inFirst inSecond => different (Option.some.inj ((named tx inFirst).symm.trans (named' tx inSecond)))

section Merge

variable {salt : Bytes}

def live (chains : List (List Tx)) : List (List Tx) := chains.filter fun chain => !chain.isEmpty

@[simp] theorem live_nil_cons (chains : List (List Tx)) : live ([] :: chains) = live chains := rfl

@[simp] theorem live_cons_cons (tx : Tx) (later : List Tx) (chains : List (List Tx)) :
    live ((tx :: later) :: chains) = (tx :: later) :: live chains := rfl

theorem live_flatten (chains : List (List Tx)) : (live chains).flatten = chains.flatten := flatten_filter_not_isEmpty

theorem live_cons_live (chain : List Tx) (chains : List (List Tx)) : live (chain :: live chains) = live (chain :: chains) := by
  have again : live (live chains) = live chains := by simp [live, filter_filter]
  cases chain with
  | nil => exact again
  | cons tx later => rw [live_cons_cons, live_cons_cons, again]

theorem pop_least_none (popped : popLeast salt chains = none) : live chains = [] := by
  fun_induction popLeast salt chains with
  | case1 => rfl
  | case2 rest ih => exact ih popped
  | case3 => contradiction
  | case4 => contradiction
  | case5 => contradiction

structure Popped (salt : Bytes) (chains : List (List Tx)) (tx : Tx) (later : List Tx) (others rest : List (List Tx)) : Prop where
  taken : (live chains).Perm ((tx :: later) :: others)
  left : (live rest).Perm (live (later :: others))
  least : ∀ head tail, head :: tail ∈ live chains → rank salt tx ≤ rank salt head

theorem pop_least_some (popped : popLeast salt chains = some (tx, rest)) : ∃ later others, Popped salt chains tx later others rest := by
  fun_induction popLeast salt chains generalizing tx rest with
  | case1 => contradiction
  | case2 chains ih =>
    obtain ⟨later, others, effect⟩ := ih popped
    exact ⟨later, others, effect.taken, effect.left, effect.least⟩
  | case3 head later chains empty =>
    cases popped
    refine ⟨later, live chains, Perm.refl _, Perm.of_eq (live_cons_live later chains).symm, ?_⟩
    rw [live_cons_cons, pop_least_none empty]
    intro first tail member
    rw [(List.cons.inj (mem_singleton.mp member)).1]
  | case4 head later chains other remaining found earlier ih =>
    cases popped
    obtain ⟨later', others, popped⟩ := ih found
    have swapped : (live ((head :: later) :: later' :: others)).Perm (live (later' :: (head :: later) :: others)) :=
      (Perm.swap later' (head :: later) others).filter _
    refine ⟨later', (head :: later) :: others, (popped.taken.cons _).trans (Perm.swap _ _ _), (popped.left.cons _).trans swapped, ?_⟩
    intro first tail member
    rcases mem_cons.mp member with same | member
    · rw [(List.cons.inj same).1]
      exact ((before_iff_rank salt _ _).mp earlier).le
    · exact popped.least first tail member
  | case5 head later chains other remaining found notEarlier ih =>
    cases popped
    obtain ⟨later', others, popped⟩ := ih found
    refine ⟨later, live chains, Perm.refl _, Perm.of_eq (live_cons_live later chains).symm, ?_⟩
    intro first tail member
    rcases mem_cons.mp member with same | member
    · rw [(List.cons.inj same).1]
    · exact (not_lt.mp fun less => notEarlier ((before_iff_rank salt _ _).mpr less)).trans (popped.least first tail member)

theorem popped_flatten (popped : Popped salt chains tx later others rest) : chains.flatten.Perm (tx :: rest.flatten) := by
  have taken := popped.taken.flatten
  have left := popped.left.flatten
  rw [live_flatten] at taken left
  rw [live_flatten] at left
  exact taken.trans (left.symm.cons tx)

theorem drain_perm (salt : Bytes) (count : Nat) (chains : List (List Tx)) (enough : chains.flatten.length = count) :
    (drain salt count chains).Perm chains.flatten := by
  induction count generalizing chains with
  | zero => rw [eq_nil_of_length_eq_zero enough, drain]
  | succ count ih =>
    unfold drain
    cases popped : popLeast salt chains with
    | none =>
      have empty := congrArg flatten (pop_least_none popped)
      rw [live_flatten] at empty
      rw [empty] at enough
      contradiction
    | some result =>
      obtain ⟨tx, rest⟩ := result
      obtain ⟨later, others, effect⟩ := pop_least_some popped
      have flatten := popped_flatten effect
      have remaining : rest.flatten.length = count := by
        rw [flatten.length_eq, length_cons] at enough
        exact Nat.succ.inj enough
      exact ((ih rest remaining).cons tx).trans flatten.symm

theorem popped_pairwise {Cross : List Tx → List Tx → Prop} (symmetric : ∀ {first second}, Cross first second → Cross second first)
    (tail : ∀ {tx later other}, Cross (tx :: later) other → Cross later other) (popped : Popped salt chains tx later others rest)
    (cross : (live chains).Pairwise Cross) : (live rest).Pairwise Cross := by
  rw [popped.left.pairwise_iff symmetric]
  rw [popped.taken.pairwise_iff symmetric] at cross
  obtain ⟨head, others⟩ := pairwise_cons.mp cross
  exact Pairwise.filter _ (pairwise_cons.mpr ⟨fun other member => tail (head other member), others⟩)

theorem popped_same {rest' others' : List (List Tx)} {tx' : Tx} {later' : List Tx}
    (popped : Popped salt chains tx later others rest) (popped' : Popped salt chains' tx' later' others' rest')
    (perm : (live chains).Perm (live chains')) (apart : (live chains).Pairwise Apart) : tx = tx' ∧ (live rest).Perm (live rest') := by
  have inOther : tx' :: later' ∈ live chains := perm.mem_iff.mpr (popped'.taken.mem_iff.mpr mem_cons_self)
  have inThis : tx :: later ∈ live chains' := perm.mem_iff.mp (popped.taken.mem_iff.mpr mem_cons_self)
  have same : tx = tx' := rank_injective salt (le_antisymm (popped.least _ _ inOther) (popped'.least _ _ inThis))
  subst same
  have exchanged := popped.taken.symm.trans (perm.trans popped'.taken)
  rw [popped.taken.pairwise_iff apart_symm] at apart
  have tails : later = later' := by
    rcases mem_cons.mp (popped.taken.mem_iff.mp inOther) with chain | elsewhere
    · exact (List.cons.inj chain).2.symm
    · rcases (pairwise_cons.mp apart).1 _ elsewhere with disjoint | ⟨copy, single, single'⟩
      · exact absurd mem_cons_self (disjoint mem_cons_self)
      · rw [(List.cons.inj single).2, (List.cons.inj single').2]
  subst tails
  have remaining : (live (later :: others)).Perm (live (later :: others')) := (exchanged.cons_inv.cons later).filter _
  exact ⟨rfl, popped.left.trans (remaining.trans popped'.left.symm)⟩

theorem pop_least_none_perm (perm : (live chains).Perm (live chains')) (popped : popLeast salt chains = none) : popLeast salt chains' = none := by
  rw [pop_least_none popped] at perm
  cases popped' : popLeast salt chains' with
  | none => rfl
  | some result =>
    obtain ⟨later, others, effect⟩ := pop_least_some popped'
    exact absurd (perm.trans effect.taken) (not_perm_nil_cons _ _)

def Across (Before : Tx → Tx → Prop) (first second : List Tx) : Prop := ∀ left ∈ first, ∀ right ∈ second, Before left right ∧ Before right left

theorem drain_pairwise {Before : Tx → Tx → Prop} (count : Nat) (enough : chains.flatten.length = count)
    (inside : ∀ chain ∈ live chains, chain.Pairwise Before) (across : (live chains).Pairwise (Across Before)) :
    (drain salt count chains).Pairwise Before := by
  induction count generalizing chains with
  | zero => exact Pairwise.nil
  | succ count ih =>
    unfold drain
    cases popped : popLeast salt chains with
    | none => exact Pairwise.nil
    | some result =>
      obtain ⟨tx, rest⟩ := result
      obtain ⟨later, others, effect⟩ := pop_least_some popped
      have remaining : rest.flatten.length = count := by
        rw [(popped_flatten effect).length_eq, length_cons] at enough
        exact Nat.succ.inj enough
      have symmetric : ∀ {first second}, Across Before first second → Across Before second first :=
        fun both left inLeft right inRight => (both right inRight left inLeft).symm
      have chain := pairwise_cons.mp (inside _ (effect.taken.mem_iff.mpr mem_cons_self))
      have kept : ∀ other ∈ live rest, other = later ∨ other ∈ others := fun other listed =>
        mem_cons.mp (mem_filter.mp (effect.left.mem_iff.mp listed)).1
      refine pairwise_cons.mpr ⟨fun right listed => ?_, ih remaining (fun other listed => ?_) ?_⟩
      · rw [(drain_perm salt count rest remaining).mem_iff, ← live_flatten, mem_flatten] at listed
        obtain ⟨other, place, member⟩ := listed
        rcases kept other place with rfl | elsewhere
        · exact chain.1 right member
        · rw [effect.taken.pairwise_iff symmetric, pairwise_cons] at across
          exact (across.1 other elsewhere tx mem_cons_self right member).1
      · rcases kept other listed with rfl | elsewhere
        · exact chain.2
        · exact inside other (effect.taken.mem_iff.mpr (mem_cons_of_mem _ elsewhere))
      · exact popped_pairwise symmetric (fun both left inLater => both left (mem_cons_of_mem _ inLater)) effect across

theorem drain_perm_eq (salt : Bytes) (count : Nat) (perm : (live chains).Perm (live chains'))
    (apart : (live chains).Pairwise Apart) : drain salt count chains = drain salt count chains' := by
  induction count generalizing chains chains' with
  | zero => rfl
  | succ count ih =>
    unfold drain
    cases popped : popLeast salt chains with
    | none => rw [pop_least_none_perm perm popped]
    | some result =>
      cases popped' : popLeast salt chains' with
      | none =>
        rw [pop_least_none_perm perm.symm popped'] at popped
        contradiction
      | some result' =>
        obtain ⟨later, others, effect⟩ := pop_least_some popped
        obtain ⟨later', others', effect'⟩ := pop_least_some popped'
        obtain ⟨same, remaining⟩ := popped_same effect effect' perm apart
        simp only [same, ih remaining (popped_pairwise apart_symm (fun apart => .inl (apart_tail apart)) effect apart)]

end Merge

theorem sort_perm : (sortTxsWithSalt payload txs salt).Perm txs := by
  have chains := transaction_chains_flatten payload txs salt
  exact (drain_perm salt txs.length _ chains.length_eq).trans chains

theorem sort_perm_eq {txs : List Tx} (perm : txs.Perm txs') : sortTxsWithSalt payload txs salt = sortTxsWithSalt payload txs' salt := by
  unfold sortTxsWithSalt
  rw [perm.length_eq]
  exact drain_perm_eq salt _ ((transaction_chains_perm payload salt perm).filter _) ((transaction_chains_apart payload txs salt).filter _)

def NonceOrdered (left right : Tx) : Prop := ∀ signer first second, txSigner payload left = some signer → txSigner payload right = some signer →
  txNonce payload left = some first → txNonce payload right = some second → first ≤ second

theorem loose_ordered {loose : Tx} (free : chained payload loose = false) (other : Tx) :
    NonceOrdered payload loose other ∧ NonceOrdered payload other loose := by
  constructor
  · intro signer first second named _ counted _
    simp [chained, named, counted] at free
  · intro signer first second _ named _ counted
    simp [chained, named, counted] at free

theorem sort_nonce_ordered : (sortTxsWithSalt payload txs salt).Pairwise (NonceOrdered payload) := by
  refine drain_pairwise txs.length (transaction_chains_flatten payload txs salt).length_eq (fun chain listed => ?_) (Pairwise.filter _ ?_)
  · rcases mem_append.mp (mem_filter.mp listed).1 with single | signed
    · obtain ⟨loose, -, rfl⟩ := mem_map.mp single
      exact pairwise_singleton _ _
    · obtain ⟨signer, -, rfl⟩ := mem_map.mp signed
      refine (chain_sorted payload salt _).imp fun before signer first second _ _ counted counted' => ?_
      have nonces := Prod.Lex.monotone_fst _ _ before
      simpa [nonceRank, counted, counted'] using nonces
  · apply transaction_chains_pairwise
    · intro first second free _ left single right _
      exact mem_singleton.mp single ▸ loose_ordered payload free right
    · intro first chain free _ left single right _
      exact mem_singleton.mp single ▸ loose_ordered payload free right
    · intro chain chain' signer signer' different named named' left inLeft right inRight
      have signers : txSigner payload left ≠ txSigner payload right := by
        rw [named left inLeft, named' right inRight]
        exact fun same => different (Option.some.inj same)
      exact ⟨fun _ _ _ found found' => absurd (found.trans found'.symm) signers, fun _ _ _ found found' => absurd (found'.trans found.symm) signers⟩

theorem sort_ordered : isOrderedWithSalt payload (sortTxsWithSalt payload txs salt) salt = true :=
  decide_eq_true (sort_perm_eq payload salt (sort_perm payload txs salt)).symm

theorem sort_canonical (payload : TxPayload) (salt : Bytes) (txs : List Tx) : (sortTxsWithSalt payload txs salt).Perm txs ∧
    (∀ others, others.Perm txs → sortTxsWithSalt payload others salt = sortTxsWithSalt payload txs salt) ∧
    (sortTxsWithSalt payload txs salt).Pairwise (NonceOrdered payload) ∧
    sortTxsWithSalt payload (sortTxsWithSalt payload txs salt) salt = sortTxsWithSalt payload txs salt ∧
    ∃! arrangement, arrangement.Perm txs ∧ isOrderedWithSalt payload arrangement salt = true := by
  have perm := sort_perm payload txs salt
  refine ⟨perm, fun others same => sort_perm_eq payload salt same, sort_nonce_ordered payload txs salt, sort_perm_eq payload salt perm,
    sortTxsWithSalt payload txs salt, ⟨perm, sort_ordered payload txs salt⟩, ?_⟩
  rintro arrangement ⟨same, ordered⟩
  exact (of_decide_eq_true ordered).trans (sort_perm_eq payload salt same)

end Vexo.FairOrdering

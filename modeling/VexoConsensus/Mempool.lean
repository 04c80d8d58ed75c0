import Mathlib.Data.Finset.Basic
import Mathlib.Tactic.Tauto
import VexoConsensus.Lib.Checks
import VexoConsensus.Lib.OrderedMap
import VexoConsensus.Types

namespace Vexo.Mempool

open ByteCodec Checks OrderedMap List AList

structure Batch where
  id : Hash
  author : ValidatorID
  txs : List Tx
  parents : List Hash
  metadata : Bytes

def hashBatch (batch : Batch) : Hash :=
  Sha256.sum256 (batch.author ++ batch.parents.flatMap Sha256.Digest.bytes ++
    batch.txs.flatMap (fun tx => putUint64 (UInt64.ofNat tx.length) ++ tx) ++ batch.metadata)

-- A batch that comes without an identifier gets the hash of its contents.
def Batch.identified (batch : Batch) : Batch := if batch.id = zeroHash then { batch with id := hashBatch batch } else batch

inductive BatchErr where
  | contextDone | duplicateBatch | unknownParentBatch | writeFailed

-- The log takes the batch, or there is none.
structure AddCall where
  ctx : Context
  logged : Bool
  batch : Batch

structure DAG where
  batches : Table Hash Batch
  tips : Finset Hash

namespace DAG

variable (dag : DAG)

def addBatchUnchecked (batch : Batch) : DAG where
  batches := dag.batches.insert batch.id batch
  tips := batch.parents.foldl Finset.erase (insert batch.id dag.tips)

def addBatch (call : AddCall) : Except BatchErr DAG := do
  require (call.ctx.done = false) .contextDone
  let batch := call.batch.identified
  require (dag.batches.lookup batch.id = none) .duplicateBatch
  require (∀ parent ∈ batch.parents, (dag.batches.lookup parent).isSome) .unknownParentBatch
  require call.logged .writeFailed
  return dag.addBatchUnchecked batch

variable (calls : List AddCall)

def after : DAG := calls.foldl (fun dag call => (dag.addBatch call).toOption.getD dag) ⟨∅, ∅⟩

def Child (parent child : Hash) : Prop := ∃ batch, dag.batches.lookup child = some batch ∧ parent ∈ batch.parents

structure Sound : Prop where
  closed : ∀ parent child, dag.Child parent child → (dag.batches.lookup parent).isSome
  grounded : WellFounded dag.Child
  tips : ∀ id, id ∈ dag.tips ↔ (dag.batches.lookup id).isSome ∧ ∀ child, ¬ dag.Child id child

variable {dag : DAG} {batch : Batch} {id : Hash}

theorem mem_erased (parents : List Hash) (tips : Finset Hash) : id ∈ parents.foldl Finset.erase tips ↔ id ∈ tips ∧ id ∉ parents := by
  induction parents generalizing tips with
  | nil => simp
  | cons first rest ih =>
    rw [foldl_cons, ih, Finset.mem_erase, mem_cons]
    tauto

section Added

variable (fresh : dag.batches.lookup batch.id = none)
include fresh

-- A new batch is the child of its parents, and no stored batch names it as a parent.
theorem child_added (parent child : Hash) :
    (dag.addBatchUnchecked batch).Child parent child ↔ dag.Child parent child ∨ child = batch.id ∧ parent ∈ batch.parents := by
  rw [Child, Child, addBatchUnchecked]
  by_cases same : child = batch.id
  · subst same
    simp [fresh]
  · simp [same, lookup_insert_ne same]

theorem added_sound (sound : dag.Sound) (known : ∀ parent ∈ batch.parents, (dag.batches.lookup parent).isSome) :
    (dag.addBatchUnchecked batch).Sound := by
  have stored : ∀ parent child, (dag.addBatchUnchecked batch).Child parent child → (dag.batches.lookup parent).isSome := by
    intro parent child added
    rcases (child_added fresh parent child).mp added with old | ⟨-, listed⟩
    · exact sound.closed parent child old
    · exact known parent listed
  have apart : ∀ id, (dag.batches.lookup id).isSome → id ≠ batch.id := by
    intro id found same
    rw [same, fresh] at found
    cases found
  have older : ∀ id ≠ batch.id, Acc (dag.addBatchUnchecked batch).Child id := by
    intro id
    induction id using sound.grounded.induction with
    | h id ih =>
      refine fun other => ⟨_, fun parent added => ih parent ?_ (apart parent (stored parent id added))⟩
      exact ((child_added fresh parent id).mp added).resolve_right fun new => other new.1
  refine ⟨fun parent child added => ?_, ⟨fun id => ⟨_, fun parent added => older parent (apart parent (stored parent id added))⟩⟩, fun id => ?_⟩
  · rw [addBatchUnchecked, lookup_insert_ne (apart parent (stored parent child added))]
    exact stored parent child added
  · simp only [child_added fresh]
    simp only [addBatchUnchecked, mem_erased, Finset.mem_insert, sound.tips]
    by_cases same : id = batch.id
    · subst same
      have childless : ∀ child, ¬ dag.Child batch.id child := fun child old => apart _ (sound.closed _ child old) rfl
      have unlisted : batch.id ∉ batch.parents := fun listed => apart _ (known _ listed) rfl
      simp [childless, unlisted]
    · rw [lookup_insert_ne same]
      simp only [same, false_or, not_or, forall_and, not_and, forall_eq]
      tauto

end Added

theorem after_append (call : AddCall) : after (calls ++ [call]) = after calls ∨ (after calls).batches.lookup call.batch.identified.id = none ∧
      (∀ parent ∈ call.batch.identified.parents, ((after calls).batches.lookup parent).isSome) ∧
      after (calls ++ [call]) = (after calls).addBatchUnchecked call.batch.identified := by
  rw [after, foldl_append, foldl_cons, foldl_nil, ← after]
  cases taken : (after calls).addBatch call with
  | error reason => exact .inl rfl
  | ok next =>
    simp only [addBatch, ok_iff] at taken
    obtain ⟨-, fresh, known, -, same⟩ := taken
    cases same
    exact .inr ⟨fresh, known, rfl⟩

theorem after_sound : (after calls).Sound := by
  induction calls using reverseRecOn with
  | nil =>
    have none : ∀ parent child, ¬ (after []).Child parent child := by
      rintro parent child ⟨batch, found, -⟩
      cases found
    exact ⟨fun parent child held => absurd held (none parent child), ⟨fun id => ⟨_, fun parent held => absurd held (none parent id)⟩⟩,
      fun id => by simp [after]⟩
  | append_singleton calls call ih =>
    rcases after_append calls call with same | ⟨fresh, known, added⟩
    · rwa [same]
    · rw [added]
      exact added_sound fresh ih known

-- The call a stored batch came with, and the calls before it, which had stored its parents.
structure Entered (id : Hash) (batch : Batch) : Prop where
  named : batch.id = id
  given : ∃ call ∈ calls, batch = call.batch.identified
  ordered : ∃ before rest, calls = before ++ rest ∧ (after before).batches.lookup id = none ∧
    ∀ parent ∈ batch.parents, ((after before).batches.lookup parent).isSome

theorem Entered.later {calls : List AddCall} (entered : Entered calls id batch) (call : AddCall) : Entered (calls ++ [call]) id batch := by
  obtain ⟨named, ⟨given, listed, same⟩, before, rest, split, stored⟩ := entered
  exact ⟨named, ⟨given, mem_append_left _ listed, same⟩, before, rest ++ [call], by rw [split, append_assoc], stored⟩

theorem after_entered (found : (after calls).batches.lookup id = some batch) : Entered calls id batch := by
  induction calls using reverseRecOn with
  | nil => cases found
  | append_singleton calls call ih =>
    rcases after_append calls call with same | ⟨fresh, known, added⟩
    · rw [same] at found
      exact (ih found).later call
    · rw [added] at found
      rcases lookup_insert_cases found with ⟨rfl, rfl⟩ | ⟨-, found⟩
      · exact ⟨rfl, ⟨call, by simp, rfl⟩, calls, [call], rfl, fresh, known⟩
      · exact (ih found).later call

theorem identified_hash_iff (batch : Batch) :
    batch.identified.id = hashBatch batch.identified ↔ batch.id = zeroHash ∨ batch.id = hashBatch batch := by
  by_cases zero : batch.id = zeroHash
  · rw [Batch.identified, if_pos zero]
    exact iff_of_true rfl (.inl zero)
  · rw [Batch.identified, if_neg zero, or_iff_right zero]

theorem batches_form_dag (calls : List AddCall) :
    (∀ id batch, (after calls).batches.lookup id = some batch → Entered calls id batch ∧ ∃ call ∈ calls, batch = call.batch.identified ∧
      (batch.id = hashBatch batch ↔ call.batch.id = zeroHash ∨ call.batch.id = hashBatch call.batch)) ∧
    (∀ id, ¬ Relation.TransGen (after calls).Child id id) ∧
    ∀ id, id ∈ (after calls).tips ↔ ((after calls).batches.lookup id).isSome ∧ ∀ child, ¬ (after calls).Child id child := by
  have sound := after_sound calls
  refine ⟨fun id batch found => ?_, fun id cycle => sound.grounded.transGen.asymmetric _ _ cycle cycle, sound.tips⟩
  have entered := after_entered calls found
  obtain ⟨call, listed, rfl⟩ := entered.given
  exact ⟨entered, call, listed, rfl, identified_hash_iff call.batch⟩

def namedBatch : Batch := ⟨⟨replicate 32 1, ones_length⟩, utf8 "alice", [utf8 "tx"], [], []⟩

-- An identifier the caller chose is stored as it is.
theorem chosen_identifier_kept : ∃ batch, (after [⟨.background, true, namedBatch⟩]).batches.lookup namedBatch.id = some batch ∧
    batch.id ≠ hashBatch batch := by
  refine ⟨namedBatch, rfl, ?_⟩
  decide +kernel

end DAG

-- None is the panic of the division when the factor wraps round to zero.
def bumpedByBPS (newValue oldValue bumpBPS : UInt64) : Option Bool :=
  let maxUint64 : UInt64 := ~~~0
  if oldValue = 0 then some (newValue > 0)
  else if 10000 + bumpBPS = 0 then none
  else if oldValue > maxUint64 / (10000 + bumpBPS) then some (newValue = maxUint64)
  else
    let required := (oldValue * (10000 + bumpBPS) + 9999) / 10000
    some (newValue ≥ required)

variable {oldValue bumpBPS : UInt64}

theorem bumped_iff (newValue : UInt64) (present : oldValue ≠ 0) {enough : Prop} [Decidable enough] :
    bumpedByBPS newValue oldValue bumpBPS = some (decide enough) ↔
      let factor := (10000 + bumpBPS.toNat) % 2 ^ 64
      factor ≠ 0 ∧ ((2 ^ 64 ≤ oldValue.toNat * factor ∧ newValue.toNat = 2 ^ 64 - 1 ∨
        oldValue.toNat * factor < 2 ^ 64 ∧ (oldValue.toNat * factor + 9999) % 2 ^ 64 / 10000 ≤ newValue.toNat) ↔ enough) := by
  have wrapped : (10000 + bumpBPS).toNat = (10000 + bumpBPS.toNat) % 2 ^ 64 := UInt64.toNat_add ..
  have nonzero : oldValue.toNat ≠ UInt64.toNat 0 := fun zero => present (UInt64.toNat_inj.mp zero)
  simp only [bumpedByBPS, ← UInt64.toNat_inj, gt_iff_lt, ge_iff_le, UInt64.lt_iff_toNat_lt, UInt64.le_iff_toNat_le, UInt64.toNat_div,
    UInt64.toNat_add, UInt64.toNat_mul, wrapped, if_neg nonzero]
  generalize (10000 + bumpBPS.toNat) % 2 ^ 64 = factor
  by_cases panics : factor = 0
  · simp [panics]
  have beyond : (~~~0 : UInt64).toNat / factor < oldValue.toNat ↔ 2 ^ 64 ≤ oldValue.toNat * factor :=
    Nat.div_lt_iff_lt_mul (Nat.pos_of_ne_zero panics)
  simp only [beyond, UInt64.toNat_zero, panics, if_false]
  split <;> simp [panics] <;> omega

-- The product and its rounding fit in 64 bits, or no price but the greatest one is enough.
def Representable (oldValue bumpBPS : UInt64) : Prop :=
  let required := oldValue.toNat * (10000 + bumpBPS.toNat)
  required + 9999 < 2 ^ 64 ∨ 10000 + bumpBPS.toNat < 2 ^ 64 ∧ (2 ^ 64 - 2) * 10000 < required ∧ required ≤ (2 ^ 64 - 1) * 10000

theorem bump_exact_iff (oldValue bumpBPS : UInt64) (present : 1 ≤ oldValue) :
    (∀ newValue, bumpedByBPS newValue oldValue bumpBPS =
      some (decide (newValue.toNat * 10000 ≥ oldValue.toNat * (10000 + bumpBPS.toNat)))) ↔ Representable oldValue bumpBPS := by
  have positive : 1 ≤ oldValue.toNat := UInt64.le_iff_toNat_le.mp present
  have nonzero : oldValue ≠ 0 := fun zero => by simp [zero] at positive
  have bound := bumpBPS.toNat_lt
  simp only [bumped_iff _ nonzero, Representable]
  generalize oldValue.toNat = price at positive ⊢
  generalize bumpBPS.toNat = bps at bound ⊢
  constructor
  · intro exact
    have least := exact (UInt64.ofNat 0)
    have middle := exact (UInt64.ofNat 10000)
    have second := exact (UInt64.ofNat (2 ^ 64 - 2))
    have most := exact (UInt64.ofNat (2 ^ 64 - 1))
    rw [UInt64.toNat_ofNat_of_lt' (by decide)] at least middle second most
    rcases Nat.lt_or_ge (10000 + bps) (2 ^ 64) with small | wraps
    · rw [Nat.mod_eq_of_lt small] at least second most
      omega
    · -- The factor has wrapped round to less than 10000, and the code asks for too little.
      have little := Nat.mul_le_mul_left price (show (10000 + bps) % 2 ^ 64 ≤ 9999 by omega)
      have product : price * (10000 + bps) = price * ((10000 + bps) % 2 ^ 64) + price * 2 ^ 64 := by
        rw [← Nat.mul_add]
        exact congrArg _ (by omega)
      omega
  · intro fits newValue
    have highest := newValue.toNat_lt
    have factor := Nat.le_mul_of_pos_left (10000 + bps) positive
    rw [Nat.mod_eq_of_lt (by omega)]
    omega

-- Twice the price of 2 ^ 60 is far below the greatest one, but the code refuses it; another factor makes it panic.
theorem enough_more_refused : bumpedByBPS 0x2000000000000000 0x1000000000000000 1000 = some false ∧ bumpedByBPS 1 1 (0 - 10000) = none ∧
    0x2000000000000000 * 10000 ≥ 0x1000000000000000 * (10000 + 1000) := by
  decide

theorem small_bump_exact : Representable 100 1000 ∧ bumpedByBPS 110 100 1000 = some true ∧ bumpedByBPS 109 100 1000 = some false := by
  have fits : Representable 100 1000 := .inl (by decide)
  have exact := (bump_exact_iff 100 1000 (by decide)).mpr fits
  exact ⟨fits, exact 110, exact 109⟩

end Vexo.Mempool

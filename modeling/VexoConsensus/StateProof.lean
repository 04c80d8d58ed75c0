import Mathlib.Data.List.Sort
import VexoConsensus.App.Store
import VexoConsensus.Lib.JsonText
import VexoConsensus.Lib.MerkleTree

namespace Vexo.StateProof

open ByteCodec MerkleTree List

structure Pair where
  (key value : Bytes)
deriving DecidableEq

structure Step where
  side : GoString
  hash : Hash
deriving DecidableEq

structure AbsenceNeighbor where
  (key value : Bytes)
  (index leafCount : UInt64)
  path : List Step
deriving DecidableEq

def sized (value : Bytes) : Bytes := putUint64 (UInt64.ofNat value.length) ++ value

variable (space : GoString) (pairs : List Pair)

def leafPreimage (key value : Bytes) : Bytes := utf8 "vexo.state.leaf.v1" ++ 0 :: space ++ sized key ++ sized value

def leafHash (key value : Bytes) : Hash := Sha256.sum256 (leafPreimage space key value)

def nodeHash (left right : Hash) : Hash := Sha256.sum256 (utf8 "vexo.state.node.v1" ++ left.bytes ++ right.bytes)

def emptyRoot : Hash := Sha256.sum256 (utf8 "vexo.state.empty.v1" ++ space)

-- The last hash of an odd level goes up as it is.
def nextLevel : List Hash → List Hash
  | left :: right :: rest => nodeHash left right :: nextLevel rest
  | level => level

def climbLevels : Nat → List Hash → Hash
  | _, [] => zeroHash
  | _, [root] => root
  | 0, root :: _ => root
  | rounds + 1, level => climbLevels rounds (nextLevel level)

-- A level of that many hashes is down to one after fewer rounds.
def merkleRoot (hashes : List Hash) : Hash := climbLevels hashes.length hashes

def sortedLeaves : Option (List Pair) :=
  let leaves := pairs.mergeSort fun left right => left.key ≤ right.key
  if space ≠ [] ∧ (∀ pair ∈ pairs, pair.key ≠ []) ∧ (leaves.map Pair.key).Nodup then some leaves else none

def root : Option Hash :=
  (sortedLeaves space pairs).map fun leaves =>
    if leaves = [] then emptyRoot space else merkleRoot (leaves.map fun leaf => leafHash space leaf.key leaf.value)

def pathStep (level : List Hash) (index : Nat) : List Step :=
  if index % 2 = 0 then (level[index + 1]?.map fun sibling => ⟨utf8 "right", sibling⟩).toList
  else (level[index - 1]?.map fun sibling => ⟨utf8 "left", sibling⟩).toList

def pathLevels : Nat → List Hash → Nat → List Step
  | 0, _, _ => []
  | rounds + 1, level, index =>
    if level.length ≤ 1 then [] else pathStep level index ++ pathLevels rounds (nextLevel level) (index / 2)

def merklePath (hashes : List Hash) (targetIndex : Nat) : List Step := pathLevels hashes.length hashes targetIndex

def leafHashes (leaves : List Pair) : List Hash := leaves.map fun leaf => leafHash space leaf.key leaf.value

def buildMembership (key : Bytes) : Option (Hash × Bytes × Bool × List Step) :=
  if key = [] then none
  else
    (sortedLeaves space pairs).map fun leaves =>
      if leaves = [] then (emptyRoot space, [], false, [])
      else
        let hashes := leafHashes space leaves
        -- Keys are distinct, so the last match of the loop is the first.
        match leaves.find? fun leaf => leaf.key = key with
        | none => (merkleRoot hashes, [], false, [])
        | some leaf => (merkleRoot hashes, leaf.value, true, merklePath hashes (leaves.findIdx fun leaf => leaf.key = key))

def absenceNeighbor (pair : Pair) (index leafCount : Nat) (hashes : List Hash) : AbsenceNeighbor :=
  ⟨pair.key, pair.value, UInt64.ofNat index, UInt64.ofNat leafCount, merklePath hashes index⟩

def buildNonMembership (key : Bytes) : Option (Hash × Option AbsenceNeighbor × Option AbsenceNeighbor × Bool) :=
  if key = [] then none
  else
    (sortedLeaves space pairs).map fun leaves =>
      if leaves = [] then (emptyRoot space, none, none, false)
      else
        let hashes := leafHashes space leaves
        let position := leaves.findIdx fun leaf => key ≤ leaf.key
        let neighbor := fun index => leaves[index]?.map fun leaf => absenceNeighbor leaf index leaves.length hashes
        if leaves[position]?.any fun leaf => leaf.key = key then (merkleRoot hashes, none, none, true)
        else (merkleRoot hashes, if 0 < position then neighbor (position - 1) else none, neighbor position, false)

def climb (current : Hash) (step : Step) : Option Hash :=
  if step.side = utf8 "left" then some (nodeHash step.hash current)
  else if step.side = utf8 "right" then some (nodeHash current step.hash)
  else none

def verifyMembership (key value : Bytes) (path : List Step) (expectedRoot : Hash) : Bool :=
  space ≠ [] ∧ key ≠ [] ∧ expectedRoot ≠ zeroHash ∧ path.foldlM climb (leafHash space key value) = some expectedRoot

def verifyNonMembership (key : Bytes) (expectedRoot : Hash) : Bool :=
  space ≠ [] ∧ key ≠ [] ∧ expectedRoot ≠ zeroHash ∧ (∀ pair ∈ pairs, pair.key ≠ key) ∧ root space pairs = some expectedRoot

def verifyNeighbor (neighbor : AbsenceNeighbor) (expectedRoot : Hash) : Bool :=
  neighbor.key ≠ [] ∧ neighbor.leafCount ≠ 0 ∧ neighbor.index < neighbor.leafCount ∧
    verifyMembership space neighbor.key neighbor.value neighbor.path expectedRoot

def verifyNonMembershipCompact (key : Bytes) (expectedRoot : Hash) (left right : Option AbsenceNeighbor) : Bool :=
  if space = [] ∨ key = [] ∨ expectedRoot = zeroHash then false
  else
    match left, right with
    | none, none => expectedRoot = emptyRoot space
    | none, some right => key < right.key ∧ verifyNeighbor space right expectedRoot ∧ right.index = 0
    | some left, none => left.key < key ∧ verifyNeighbor space left expectedRoot ∧ left.index + 1 = left.leafCount
    | some left, some right =>
      left.key < key ∧ verifyNeighbor space left expectedRoot ∧ key < right.key ∧ verifyNeighbor space right expectedRoot ∧
        left.leafCount = right.leafCount ∧ left.index + 1 = right.index

-- An array of 32 bytes: later items are passed over, missing ones are zero.
def hashDecoder : Json.Decoder Hash
  | current, .null => some current
  | current, .array items =>
    (Json.intoItems 0 Json.intoUint8 current.bytes (items.take 32)).map fun bytes => ⟨(bytes ++ List.replicate 32 0).take 32, by simp⟩
  | _, _ => none

def stepDecoder : Json.Decoder Step :=
  Json.intoStruct
    [(utf8 "side", fun step value => (Json.intoText step.side value).map fun side => { step with side }),
      (utf8 "hash", fun step value => (hashDecoder step.hash value).map fun hash => { step with hash })]

def pairDecoder : Json.Decoder Pair :=
  Json.intoStruct
    [(utf8 "key", fun pair value => (Json.intoBytes pair.key value).map fun key => { pair with key }),
      (utf8 "value", fun pair value => (Json.intoBytes pair.value value).map fun bytes => { pair with value := bytes })]

def neighborDecoder : Json.Decoder AbsenceNeighbor :=
  Json.intoStruct
    [(utf8 "key", fun neighbor value => (Json.intoBytes neighbor.key value).map fun key => { neighbor with key }),
      (utf8 "value", fun neighbor value => (Json.intoBytes neighbor.value value).map fun bytes => { neighbor with value := bytes }),
      (utf8 "index", fun neighbor value => (Json.intoUint64 neighbor.index value).map fun index => { neighbor with index }),
      (utf8 "leaf_count", fun neighbor value => (Json.intoUint64 neighbor.leafCount value).map fun leafCount => { neighbor with leafCount }),
      (utf8 "path", fun neighbor value => (Json.intoList ⟨[], zeroHash⟩ stepDecoder neighbor.path value).map fun path => { neighbor with path })]

def nodePreimage (left right : Hash) : Bytes := utf8 "vexo.state.node.v1" ++ left.bytes ++ right.bytes

variable (space : GoString)

def emptyPreimage : Bytes := utf8 "vexo.state.empty.v1" ++ space

-- What a Go slice can hold.
def Held (bytes : Bytes) : Prop := bytes.length < 2 ^ 63

def rootMessages (leaves : List Pair) : List Bytes :=
  emptyPreimage space :: leaves.map (fun leaf => leafPreimage space leaf.key leaf.value) ++
    (climbPairs nodeHash leaves.length (leafHashes space leaves)).map fun both => nodePreimage both.1 both.2

def pathMessages (node : Hash) : List Step → List Bytes
  | [] => []
  | step :: rest =>
    if step.side = utf8 "left" then nodePreimage step.hash node :: pathMessages (nodeHash step.hash node) rest
    else if step.side = utf8 "right" then nodePreimage node step.hash :: pathMessages (nodeHash node step.hash) rest
    else []

def membershipMessages (key value : Bytes) (path : List Step) : List Bytes :=
  leafPreimage space key value :: pathMessages (leafHash space key value) path

theorem sized_injective {first second rest rest' : Bytes} (firstHeld : Held first) (secondHeld : Held second)
    (same : sized first ++ rest = sized second ++ rest') : first = second ∧ rest = rest' := by
  rw [sized, sized, append_assoc, append_assoc] at same
  obtain ⟨field, following⟩ := append_inj same (by simp)
  have equal := congrArg UInt64.toNat (put_uint64_injective _ _ field)
  rw [UInt64.toNat_ofNat', UInt64.toNat_ofNat'] at equal
  unfold Held at firstHeld secondHeld
  exact append_inj following (by omega)

theorem leaf_preimage_injective {space : GoString} {first second : Pair} (firstKey : Held first.key) (firstValue : Held first.value)
    (secondKey : Held second.key) (secondValue : Held second.value)
    (same : leafPreimage space first.key first.value = leafPreimage space second.key second.value) : first = second := by
  simp only [leafPreimage, append_assoc] at same
  obtain ⟨keys, values⟩ := sized_injective firstKey secondKey (append_cancel_left (append_cancel_left same))
  obtain ⟨values, -⟩ := @sized_injective _ _ [] [] firstValue secondValue (by rw [append_nil, append_nil, values])
  cases first
  cases second
  simp only [Pair.mk.injEq]
  exact ⟨keys, values⟩

theorem node_preimage_injective {left right left' right' : Hash} (same : nodePreimage left right = nodePreimage left' right') :
    left = left' ∧ right = right' := by
  unfold nodePreimage at same
  rw [append_assoc, append_assoc] at same
  obtain ⟨lefts, rights⟩ := append_inj (append_cancel_left same) (by rw [left.size, left'.size])
  exact ⟨digest_bytes_inj lefts, digest_bytes_inj rights⟩

theorem leaf_tag (key value : Bytes) : (leafPreimage space key value).take 12 = (utf8 "vexo.state.leaf.v1").take 12 := by
  unfold leafPreimage
  rw [append_assoc, append_assoc]
  exact take_append_of_le_length (by with_unfolding_all decide)

theorem node_tag (left right : Hash) : (nodePreimage left right).take 12 = (utf8 "vexo.state.node.v1").take 12 := by
  unfold nodePreimage
  rw [append_assoc]
  exact take_append_of_le_length (by with_unfolding_all decide)

theorem empty_tag : (emptyPreimage space).take 12 = (utf8 "vexo.state.empty.v1").take 12 :=
  take_append_of_le_length (by with_unfolding_all decide)

theorem leaf_node_apart (key value : Bytes) (left right : Hash) : leafPreimage space key value ≠ nodePreimage left right := by
  intro same
  have tags := congrArg (take 12) same
  rw [leaf_tag, node_tag] at tags
  exact absurd tags (by with_unfolding_all decide)

theorem empty_leaf_apart (key value : Bytes) : emptyPreimage space ≠ leafPreimage space key value := by
  intro same
  have tags := congrArg (take 12) same
  rw [leaf_tag, empty_tag] at tags
  exact absurd tags (by with_unfolding_all decide)

theorem empty_node_apart (left right : Hash) : emptyPreimage space ≠ nodePreimage left right := by
  intro same
  have tags := congrArg (take 12) same
  rw [node_tag, empty_tag] at tags
  exact absurd tags (by with_unfolding_all decide)

variable {leaves others : List Pair} {index : Nat} {node : Hash}

theorem next_level_eq (level : List Hash) : nextLevel level = MerkleTree.nextLevel nodeHash level := by
  induction level using MerkleTree.nextLevel.induct with
  | case1 left right rest ih => rw [nextLevel, MerkleTree.nextLevel, ih]
  | case2 level short =>
    rcases level with _ | ⟨left, _ | ⟨right, rest⟩⟩
    · simp [nextLevel, MerkleTree.nextLevel]
    · simp [nextLevel, MerkleTree.nextLevel]
    · exact absurd rfl (short left right rest)

theorem climb_levels_eq (rounds : Nat) (level : List Hash) : climbLevels rounds level = MerkleTree.climb nodeHash zeroHash rounds level := by
  induction rounds generalizing level with
  | zero =>
    match level with
    | [] => rfl
    | [_] => rfl
    | _ :: _ :: _ => rfl
  | succ rounds ih =>
    match level with
    | [] => rfl
    | [_] => rfl
    | left :: right :: rest =>
      change climbLevels rounds (nextLevel _) = MerkleTree.climb nodeHash zeroHash rounds (MerkleTree.nextLevel nodeHash _)
      rw [next_level_eq, ih]

-- One step of the path leads from a node to the node above it; a promoted node has no step.
theorem path_step_climbs {level : List Hash} (here : level[index]? = some node) :
    ∃ above, (nextLevel level)[index / 2]? = some above ∧ (pathStep level index).foldlM climb node = some above := by
  rw [next_level_eq, next_level_get]
  unfold pathStep
  by_cases even : index % 2 = 0
  · have twice : 2 * (index / 2) = index := by omega
    rw [if_pos even, twice, here]
    cases beside : level[index + 1]? with
    | none => exact ⟨node, rfl, rfl⟩
    | some sibling =>
      refine ⟨nodeHash node sibling, rfl, ?_⟩
      have other : utf8 "right" ≠ utf8 "left" := by with_unfolding_all decide
      simp [climb, other]
  · have before : 2 * (index / 2) = index - 1 := by omega
    have back : index - 1 + 1 = index := by omega
    have inside := List.getElem?_eq_some_iff.mp here
    obtain ⟨bound, -⟩ := inside
    have beside : level[index - 1]? = some level[index - 1] := getElem?_eq_getElem _
    rw [if_neg even, before, back, beside, here]
    exact ⟨nodeHash level[index - 1] node, rfl, by simp [climb]⟩

theorem path_levels_climb {rounds : Nat} {level : List Hash} (enough : level.length ≤ rounds)
    (here : level[index]? = some node) : (pathLevels rounds level index).foldlM climb node = some (climbLevels rounds level) := by
  induction rounds generalizing level index node with
  | zero =>
    rw [eq_nil_of_length_eq_zero (Nat.le_zero.mp enough)] at here
    simp at here
  | succ rounds ih =>
    match level with
    | [] => simp at here
    | [only] =>
      have first : index = 0 ∧ only = node := by
        cases index with
        | zero => simpa using here
        | succ index => simp at here
      rw [pathLevels, if_pos (by simp), first.2]
      rfl
    | left :: right :: rest =>
      obtain ⟨above, next, step⟩ := path_step_climbs here
      have shorter : (nextLevel (left :: right :: rest)).length ≤ rounds := by
        rw [next_level_eq]
        exact next_level_shorter (by simp) enough
      rw [pathLevels, if_neg (by simp), foldlM_append, step]
      exact ih shorter next

theorem merkle_path_climbs {hashes : List Hash} (here : hashes[index]? = some node) :
    (merklePath hashes index).foldlM climb node = some (merkleRoot hashes) :=
  path_levels_climb (Nat.le_refl _) here

section Sorting

def sortPairs (pairs : List Pair) : List Pair := pairs.mergeSort fun left right => left.key ≤ right.key

structure WellKeyed (space : GoString) (pairs : List Pair) : Prop where
  named : space ≠ []
  keyed : ∀ pair ∈ pairs, pair.key ≠ []
  distinct : (pairs.map Pair.key).Nodup

variable {space : GoString} {pairs : List Pair}

theorem sort_pairs_perm (pairs : List Pair) : (sortPairs pairs).Perm pairs := mergeSort_perm ..

theorem sort_pairs_sorted (pairs : List Pair) : (sortPairs pairs).Pairwise fun left right => left.key ≤ right.key := by
  have sorted := @pairwise_mergeSort _ (fun left right : Pair => decide (left.key ≤ right.key))
    (fun _ _ _ first second => decide_eq_true (List.le_trans (of_decide_eq_true first) (of_decide_eq_true second)))
    (fun left right => by simpa using List.le_total left.key right.key) pairs
  exact sorted.imp fun ordered => of_decide_eq_true ordered

theorem sorted_leaves_iff : sortedLeaves space pairs = some leaves ↔ WellKeyed space pairs ∧ leaves = sortPairs pairs := by
  have distinct_iff : ((sortPairs pairs).map Pair.key).Nodup ↔ (pairs.map Pair.key).Nodup := ((sort_pairs_perm pairs).map _).nodup_iff
  have unfolded : sortedLeaves space pairs = if space ≠ [] ∧ (∀ pair ∈ pairs, pair.key ≠ []) ∧ ((sortPairs pairs).map Pair.key).Nodup
      then some (sortPairs pairs) else none := rfl
  rw [unfolded]
  constructor
  · intro sorted
    split at sorted
    · rename_i checked
      cases sorted
      exact ⟨⟨checked.1, checked.2.1, distinct_iff.mp checked.2.2⟩, rfl⟩
    · contradiction
  · rintro ⟨keyed, rfl⟩
    exact if_pos ⟨keyed.named, keyed.keyed, distinct_iff.mpr keyed.distinct⟩

variable (keyed : WellKeyed space pairs)
include keyed

theorem sort_pairs_strict : (sortPairs pairs).Pairwise fun left right => left.key < right.key := by
  have distinct : ((sortPairs pairs).map Pair.key).Nodup := ((sort_pairs_perm pairs).map _).nodup_iff.mpr keyed.distinct
  have apart : (sortPairs pairs).Pairwise fun left right => left.key ≠ right.key := pairwise_map.mp distinct
  refine Pairwise.imp₂ (fun left right ordered different => ?_) (sort_pairs_sorted pairs) apart
  by_contra notBelow
  exact different (List.le_antisymm ordered (List.not_lt.mp notBelow))

theorem well_keyed_perm (permuted : others.Perm pairs) : WellKeyed space others :=
  ⟨keyed.named, fun pair listed => keyed.keyed pair (permuted.mem_iff.mp listed), (permuted.map _).nodup_iff.mpr keyed.distinct⟩

theorem sort_pairs_unique (permuted : others.Perm pairs) : sortPairs others = sortPairs pairs := by
  have together := (sort_pairs_perm others).trans (permuted.trans (sort_pairs_perm pairs).symm)
  refine together.eq_of_pairwise (fun left right inLeft inRight before after => ?_) (sort_pairs_sorted others) (sort_pairs_sorted pairs)
  refine inj_on_of_nodup_map keyed.distinct ?_ ((sort_pairs_perm pairs).mem_iff.mp inRight) (List.le_antisymm before after)
  exact permuted.mem_iff.mp ((sort_pairs_perm others).mem_iff.mp inLeft)

theorem sort_pairs_eq (permuted : leaves.Perm pairs)
    (sorted : leaves.Pairwise fun left right => left.key ≤ right.key) : sortPairs pairs = leaves := by
  rw [← sort_pairs_unique keyed permuted]
  exact mergeSort_of_pairwise (sorted.imp fun ordered => decide_eq_true ordered)

omit keyed in
theorem root_iff {top : Hash} : root space pairs = some top ↔
    WellKeyed space pairs ∧ top = if pairs = [] then emptyRoot space else merkleRoot (leafHashes space (sortPairs pairs)) := by
  have empty_iff : sortPairs pairs = [] ↔ pairs = [] := by
    rw [← length_eq_zero_iff, (sort_pairs_perm pairs).length_eq, length_eq_zero_iff]
  unfold root
  rw [Option.map_eq_some_iff]
  constructor
  · rintro ⟨leaves, sorted, rfl⟩
    obtain ⟨keyed, rfl⟩ := sorted_leaves_iff.mp sorted
    exact ⟨keyed, by simp only [empty_iff]; rfl⟩
  · rintro ⟨keyed, rfl⟩
    exact ⟨_, sorted_leaves_iff.mpr ⟨keyed, rfl⟩, by simp only [empty_iff]; rfl⟩

theorem root_order (permuted : others.Perm pairs) : root space others = root space pairs := by
  have empty_iff : others = [] ↔ pairs = [] := by
    rw [← length_eq_zero_iff, permuted.length_eq, length_eq_zero_iff]
  rw [root_iff.mpr ⟨keyed, rfl⟩, root_iff]
  refine ⟨well_keyed_perm keyed permuted, ?_⟩
  rw [sort_pairs_unique keyed permuted]
  simp only [empty_iff]

end Sorting

section Binding

variable {hashed : Set Bytes} {space : GoString}

structure LeafInside (hashed : Set Bytes) (space : GoString) (leaf : Pair) : Prop where
  hashed : leafPreimage space leaf.key leaf.value ∈ hashed
  key : Held leaf.key
  value : Held leaf.value

def NodeInside (hashed : Set Bytes) (left right : Hash) : Prop := nodePreimage left right ∈ hashed

def hashLeaf (space : GoString) (leaf : Pair) : Hash := leafHash space leaf.key leaf.value

theorem state_binding (free : Sha256.CollisionFree hashed) : Binding (hashLeaf space) nodeHash (LeafInside hashed space) (NodeInside hashed) where
  leafInjective first second same :=
    leaf_preimage_injective first.key first.value second.key second.value (free _ first.hashed _ second.hashed same)
  pairInjective first second same := node_preimage_injective (free _ first _ second same)
  apart leaf both same := leaf_node_apart _ _ _ _ _ (free _ leaf.hashed _ both same)

theorem path_ascends {top : Hash} {path : List Step} (inside : ∀ message ∈ pathMessages node path, message ∈ hashed)
    (climbs : path.foldlM climb node = some top) : Ascends nodeHash (NodeInside hashed) node top := by
  induction path generalizing node with
  | nil =>
    cases climbs
    exact .here _
  | cons step rest ih =>
    rw [foldlM_cons] at climbs
    obtain ⟨above, taken, climbs⟩ := Option.bind_eq_some_iff.mp climbs
    unfold climb at taken
    unfold pathMessages at inside
    by_cases left : step.side = utf8 "left"
    · rw [if_pos left] at taken inside
      cases taken
      rw [forall_mem_cons] at inside
      exact .withLeft inside.1 (ih inside.2 climbs)
    · by_cases right : step.side = utf8 "right"
      · rw [if_neg left, if_pos right] at taken inside
        cases taken
        rw [forall_mem_cons] at inside
        exact .withRight inside.1 (ih inside.2 climbs)
      · rw [if_neg left, if_neg right] at taken
        contradiction

def HeldPairs (pairs : List Pair) : Prop := ∀ pair ∈ pairs, Held pair.key ∧ Held pair.value

theorem leaves_tree (present : leaves ≠ []) (held : HeldPairs leaves) (inside : ∀ message ∈ rootMessages space leaves, message ∈ hashed) :
    ∃ tree : HashTree Pair, tree.hash (hashLeaf space) nodeHash = merkleRoot (leafHashes space leaves) ∧ tree.leaves = leaves ∧
      tree.Covered (hashLeaf space) nodeHash (LeafInside hashed space) (NodeInside hashed) := by
  rw [merkleRoot, climb_levels_eq, leafHashes, length_map]
  refine climb_leaves present (Nat.le_refl _) (fun leaf listed => ⟨inside _ ?_, (held leaf listed).1, (held leaf listed).2⟩)
    fun both listed => inside _ ?_
  · exact mem_append_left _ (mem_cons_of_mem _ (mem_map.mpr ⟨leaf, listed, rfl⟩))
  · exact mem_append_right _ (mem_map.mpr ⟨both, listed, rfl⟩)

theorem tree_not_empty (free : Sha256.CollisionFree hashed) {tree : HashTree Pair}
    (covered : tree.Covered (hashLeaf space) nodeHash (LeafInside hashed space) (NodeInside hashed)) (inside : emptyPreimage space ∈ hashed) :
    tree.hash (hashLeaf space) nodeHash ≠ emptyRoot space := by
  intro same
  cases tree with
  | leaf content => exact empty_leaf_apart _ _ _ (free _ inside _ covered.hashed same.symm)
  | node left right => exact empty_node_apart _ _ _ (free _ inside _ covered.1 same.symm)

theorem tree_not_zero (safe : SafeHashes hashed) {tree : HashTree Pair}
    (covered : tree.Covered (hashLeaf space) nodeHash (LeafInside hashed space) (NodeInside hashed)) :
    tree.hash (hashLeaf space) nodeHash ≠ zeroHash := by
  cases tree with
  | leaf content => exact safe.neverZero _ covered.hashed
  | node left right => exact safe.neverZero _ covered.1

variable {pairs : List Pair} {top : Hash}

theorem held_sorted (held : HeldPairs pairs) : HeldPairs (sortPairs pairs) :=
  fun pair listed => held pair ((sort_pairs_perm pairs).mem_iff.mp listed)

theorem root_tree (held : HeldPairs pairs) (inside : ∀ message ∈ rootMessages space (sortPairs pairs), message ∈ hashed) (present : pairs ≠ [])
    (rooted : root space pairs = some top) :
    ∃ tree : HashTree Pair, tree.hash (hashLeaf space) nodeHash = top ∧ tree.leaves = sortPairs pairs ∧
      tree.Covered (hashLeaf space) nodeHash (LeafInside hashed space) (NodeInside hashed) := by
  obtain ⟨-, rfl⟩ := root_iff.mp rooted
  rw [if_neg present]
  refine leaves_tree (fun none => present ?_) (held_sorted held) inside
  rw [← length_eq_zero_iff, ← (sort_pairs_perm pairs).length_eq, none, length_nil]

theorem root_ne_zero (safe : SafeHashes hashed) (held : HeldPairs pairs)
    (inside : ∀ message ∈ rootMessages space (sortPairs pairs), message ∈ hashed) (rooted : root space pairs = some top) : top ≠ zeroHash := by
  by_cases none : pairs = []
  · obtain ⟨-, rfl⟩ := root_iff.mp rooted
    rw [if_pos none]
    exact safe.neverZero _ (inside _ (mem_append_left _ mem_cons_self))
  · obtain ⟨tree, rfl, -, covered⟩ := root_tree held inside none rooted
    exact tree_not_zero safe covered

-- Whatever path is offered, only a pair of the namespace climbs to its root.
theorem membership_sound (free : Sha256.CollisionFree hashed) (held : HeldPairs pairs)
    (inside : ∀ message ∈ rootMessages space (sortPairs pairs), message ∈ hashed) (rooted : root space pairs = some top)
    {key value : Bytes} {path : List Step} (keyHeld : Held key) (valueHeld : Held value)
    (offered : ∀ message ∈ membershipMessages space key value path, message ∈ hashed)
    (accepted : verifyMembership space key value path top = true) : ⟨key, value⟩ ∈ pairs := by
  obtain ⟨-, -, -, climbs⟩ := of_decide_eq_true accepted
  rw [membershipMessages, forall_mem_cons] at offered
  have ascends := path_ascends offered.2 climbs
  have leaf : LeafInside hashed space ⟨key, value⟩ := ⟨offered.1, keyHeld, valueHeld⟩
  by_cases none : pairs = []
  · -- The root of the empty namespace is no leaf's and no node's hash.
    obtain ⟨-, rfl⟩ := root_iff.mp rooted
    rw [if_pos none] at ascends
    have empty : emptyPreimage space ∈ hashed := inside _ (mem_append_left _ mem_cons_self)
    rcases ascends_top ascends with same | ⟨left, right, both, same⟩
    · exact absurd (free _ empty _ offered.1 same.symm) (empty_leaf_apart _ _ _)
    · exact absurd (free _ empty _ both same.symm) (empty_node_apart _ _ _)
  · obtain ⟨tree, rfl, leaves, covered⟩ := root_tree held inside none rooted
    have listed := ascending_leaf (state_binding free) covered leaf ascends
    rw [leaves] at listed
    exact (sort_pairs_perm pairs).mem_iff.mp listed

end Binding

end Vexo.StateProof

namespace Vexo.QueryProof

open ByteCodec Checks App StateProof

structure Proof where
  (schemaVersion chainID : GoString)
  height : Height
  space : GoString
  (key value : Bytes)
  found : Bool
  (stateRoot leafHash : Hash)
  merklePath : List Step
  namespaceLeaves : List Pair
  (absenceLeft absenceRight : Option AbsenceNeighbor)
deriving DecidableEq

def Proof.zero : Proof := ⟨[], [], 0, [], [], [], false, zeroHash, zeroHash, [], [], none, none⟩

-- The part of Verify that depends on whether the key exists.
def holds (proof : Proof) : Bool :=
  if proof.found then verifyMembership proof.space proof.key proof.value proof.merklePath proof.stateRoot
  else if proof.absenceLeft.isSome ∨ proof.absenceRight.isSome then
    verifyNonMembershipCompact proof.space proof.key proof.stateRoot proof.absenceLeft proof.absenceRight
  else verifyNonMembership proof.space proof.namespaceLeaves proof.key proof.stateRoot

def verify (proof : Proof) (expectedChainID : GoString) (expectedHeight : Height) (expectedRoot : Hash) : Except AppErr Unit := do
  require (proof.schemaVersion = utf8 "v1" ∧ proof.chainID ≠ [] ∧ proof.height ≠ 0 ∧ proof.space ≠ [] ∧ proof.key ≠ []) .invalidQueryProof
  require (expectedChainID = [] ∨ proof.chainID = expectedChainID) .invalidQueryProof
  require (expectedHeight = 0 ∨ proof.height = expectedHeight) .invalidQueryProof
  require (expectedRoot = zeroHash ∨ proof.stateRoot = expectedRoot) .rootMismatch
  require (proof.leafHash = leafHash proof.space proof.key proof.value) .invalidQueryProof
  require (holds proof) .invalidQueryProof

def proofDecoder : Json.Decoder Proof :=
  Json.intoStruct
    [(utf8 "schema_version", fun proof value => (Json.intoText proof.schemaVersion value).map fun schemaVersion => { proof with schemaVersion }),
      (utf8 "chain_id", fun proof value => (Json.intoText proof.chainID value).map fun chainID => { proof with chainID }),
      (utf8 "height", fun proof value => (Json.intoUint64 proof.height value).map fun height => { proof with height }),
      (utf8 "namespace", fun proof value => (Json.intoText proof.space value).map fun space => { proof with space }),
      (utf8 "key", fun proof value => (Json.intoBytes proof.key value).map fun key => { proof with key }),
      (utf8 "value", fun proof value => (Json.intoBytes proof.value value).map fun bytes => { proof with value := bytes }),
      (utf8 "exists", fun proof value => (Json.intoBool proof.found value).map fun found => { proof with found }),
      (utf8 "state_root", fun proof value => (hashDecoder proof.stateRoot value).map fun stateRoot => { proof with stateRoot }),
      (utf8 "leaf_hash", fun proof value => (hashDecoder proof.leafHash value).map fun leafHash => { proof with leafHash }),
      (utf8 "merkle_path",
        fun proof value => (Json.intoList ⟨[], zeroHash⟩ stepDecoder proof.merklePath value).map fun merklePath => { proof with merklePath }),
      (utf8 "namespace_leaves", fun proof value => (Json.intoList ⟨[], []⟩ pairDecoder proof.namespaceLeaves value).map fun namespaceLeaves =>
          { proof with namespaceLeaves }),
      (utf8 "absence_left", fun proof value => (Json.intoPointer ⟨[], [], 0, 0, []⟩ neighborDecoder proof.absenceLeft value).map fun absenceLeft =>
          { proof with absenceLeft }),
      (utf8 "absence_right", fun proof value => (Json.intoPointer ⟨[], [], 0, 0, []⟩ neighborDecoder proof.absenceRight value).map fun absenceRight =>
          { proof with absenceRight })]

def decode (data : Bytes) : Option Proof := Json.unmarshal .zero proofDecoder data

end Vexo.QueryProof

namespace Vexo.StateProof

open ByteCodec MerkleTree List Checks

section Built

variable {space : GoString} {pairs : List Pair} {index : Nat} {leaf : Pair}

theorem hashes_get {leaves : List Pair} (here : leaves[index]? = some leaf) :
    (leafHashes space leaves)[index]? = some (leafHash space leaf.key leaf.value) := by
  rw [leafHashes, getElem?_map, here]
  rfl

variable (keyed : WellKeyed space pairs)
include keyed

theorem leaf_membership (here : (sortPairs pairs)[index]? = some leaf) (set : merkleRoot (leafHashes space (sortPairs pairs)) ≠ zeroHash) :
    verifyMembership space leaf.key leaf.value (merklePath (leafHashes space (sortPairs pairs)) index)
      (merkleRoot (leafHashes space (sortPairs pairs))) = true := by
  have listed : leaf ∈ pairs := (sort_pairs_perm pairs).mem_iff.mp (mem_of_getElem? here)
  exact decide_eq_true ⟨keyed.named, keyed.keyed leaf listed, set, merkle_path_climbs (hashes_get here)⟩

theorem membership_built {pair : Pair} (listed : pair ∈ pairs) (set : merkleRoot (leafHashes space (sortPairs pairs)) ≠ zeroHash) :
    ∃ path, buildMembership space pairs pair.key = some (merkleRoot (leafHashes space (sortPairs pairs)), pair.value, true, path) ∧
      verifyMembership space pair.key pair.value path (merkleRoot (leafHashes space (sortPairs pairs))) = true := by
  have inside : pair ∈ sortPairs pairs := (sort_pairs_perm pairs).mem_iff.mpr listed
  have present : sortPairs pairs ≠ [] := ne_nil_of_mem inside
  have found : (sortPairs pairs).find? (fun leaf => leaf.key = pair.key) = some pair := by
    cases search : (sortPairs pairs).find? fun leaf => decide (leaf.key = pair.key) with
    | none => exact absurd (find?_eq_none.mp search pair inside) (by simp)
    | some leaf =>
      have same : leaf.key = pair.key := by simpa using find?_some search
      have within := (sort_pairs_perm pairs).mem_iff.mp (mem_of_find?_eq_some search)
      rw [inj_on_of_nodup_map keyed.distinct within listed same]
  have here : (sortPairs pairs)[(sortPairs pairs).findIdx fun leaf => leaf.key = pair.key]? = some pair := by
    rw [← find?_eq_getElem?_findIdx, found]
  refine ⟨_, ?_, leaf_membership keyed here set⟩
  rw [buildMembership, if_neg (keyed.keyed pair listed), sorted_leaves_iff.mpr ⟨keyed, rfl⟩]
  simp only [Option.map_some, if_neg present, found]

theorem neighbor_accepted (counted : pairs.length < 2 ^ 63)
    (here : (sortPairs pairs)[index]? = some leaf) (set : merkleRoot (leafHashes space (sortPairs pairs)) ≠ zeroHash) :
    verifyNeighbor space (absenceNeighbor leaf index (sortPairs pairs).length (leafHashes space (sortPairs pairs)))
      (merkleRoot (leafHashes space (sortPairs pairs))) = true := by
  have listed : leaf ∈ pairs := (sort_pairs_perm pairs).mem_iff.mp (mem_of_getElem? here)
  obtain ⟨below, -⟩ := List.getElem?_eq_some_iff.mp here
  rw [(sort_pairs_perm pairs).length_eq] at below ⊢
  have count : (UInt64.ofNat pairs.length).toNat = pairs.length := by
    rw [UInt64.toNat_ofNat']
    omega
  have place : (UInt64.ofNat index).toNat = index := by
    rw [UInt64.toNat_ofNat']
    omega
  refine decide_eq_true ⟨keyed.keyed leaf listed, ?_, ?_, leaf_membership keyed here set⟩
  · intro zero
    have none := congrArg UInt64.toNat zero
    rw [absenceNeighbor, count] at none
    rw [none] at below
    exact Nat.not_lt_zero _ below
  · rw [absenceNeighbor, UInt64.lt_iff_toNat_lt, count, place]
    exact below

omit keyed in
-- The place where the key would stand: everything before it is smaller, what stands there is larger.
theorem position_splits {pairs : List Pair} {key : Bytes} (absent : key ∉ pairs.map Pair.key) :
    (∀ index leaf, index < ((sortPairs pairs).findIdx fun leaf => key ≤ leaf.key) → (sortPairs pairs)[index]? = some leaf → leaf.key < key) ∧
      ∀ leaf, (sortPairs pairs)[(sortPairs pairs).findIdx fun leaf => key ≤ leaf.key]? = some leaf → key < leaf.key := by
  constructor
  · intro index leaf before here
    obtain ⟨inside, same⟩ := List.getElem?_eq_some_iff.mp here
    have small := not_of_lt_findIdx before
    rw [same] at small
    exact List.not_le.mp (by simpa using small)
  · intro leaf here
    obtain ⟨inside, same⟩ := List.getElem?_eq_some_iff.mp here
    have large := @findIdx_getElem _ _ (sortPairs pairs) inside
    rw [same] at large
    by_contra notBelow
    have equal := List.le_antisymm (of_decide_eq_true large) (List.not_lt.mp notBelow)
    refine absent (equal ▸ mem_map_of_mem ?_)
    exact (sort_pairs_perm pairs).mem_iff.mp (mem_of_getElem? here)

theorem compact_accepted (counted : pairs.length < 2 ^ 63) (present : pairs ≠ []) {key : Bytes} (named : key ≠ [])
    (absent : key ∉ pairs.map Pair.key) (set : merkleRoot (leafHashes space (sortPairs pairs)) ≠ zeroHash) :
    let leaves := sortPairs pairs
    let position := leaves.findIdx fun leaf => key ≤ leaf.key
    let neighbor := fun index => leaves[index]?.map fun leaf => absenceNeighbor leaf index leaves.length (leafHashes space leaves)
    verifyNonMembershipCompact space key (merkleRoot (leafHashes space leaves)) (if 0 < position then neighbor (position - 1) else none)
      (neighbor position) = true := by
  intro leaves position neighbor
  obtain ⟨before, after⟩ := @position_splits pairs key absent
  have length : leaves.length = pairs.length := (sort_pairs_perm pairs).length_eq
  have some_leaf : 0 < leaves.length := by
    rw [length]
    exact length_pos_iff.mpr present
  have bound : position ≤ leaves.length := findIdx_le_length
  have fits : ∀ number, number ≤ leaves.length → (UInt64.ofNat number).toNat = number := by
    intro number small
    rw [UInt64.toNat_ofNat']
    omega
  have next : 0 < position → UInt64.ofNat (position - 1) + 1 = UInt64.ofNat position := by
    intro positive
    apply UInt64.toNat_inj.mp
    rw [UInt64.toNat_add, fits _ bound, fits (position - 1) (by omega), UInt64.toNat_one]
    omega
  rw [verifyNonMembershipCompact.eq_def, if_neg (not_or.mpr ⟨keyed.named, not_or.mpr ⟨named, set⟩⟩)]
  by_cases first : 0 < position
  · have lower : position - 1 < position := Nat.sub_lt first Nat.zero_lt_one
    have left : leaves[position - 1]? = some leaves[position - 1] := getElem?_eq_getElem _
    have smaller := before _ _ lower left
    have leftAccepted := neighbor_accepted keyed counted left set
    rw [if_pos first]
    cases right : leaves[position]? with
    | none =>
      have last : position = leaves.length := Nat.le_antisymm bound (List.getElem?_eq_none_iff.mp right)
      simp only [neighbor, left, right, Option.map_some, Option.map_none, decide_eq_true_eq]
      exact ⟨smaller, leftAccepted, (next first).trans (congrArg UInt64.ofNat last)⟩
    | some leaf =>
      simp only [neighbor, left, right, Option.map_some, decide_eq_true_eq]
      exact ⟨smaller, leftAccepted, after leaf right, neighbor_accepted keyed counted right set, rfl, next first⟩
  · have zero : position = 0 := Nat.eq_zero_of_not_pos first
    have right : leaves[position]? = some leaves[position] := getElem?_eq_getElem _
    rw [if_neg first]
    simp only [neighbor, right, Option.map_some, decide_eq_true_eq]
    exact ⟨after _ right, neighbor_accepted keyed counted right set, congrArg UInt64.ofNat zero⟩

theorem non_membership_built (counted : pairs.length < 2 ^ 63) {top : Hash} (rooted : root space pairs = some top)
    (set : top ≠ zeroHash) {key : Bytes} (named : key ≠ []) (absent : key ∉ pairs.map Pair.key) :
    ∃ left right, buildNonMembership space pairs key = some (top, left, right, false) ∧
      verifyNonMembershipCompact space key top left right = true := by
  obtain ⟨-, rfl⟩ := root_iff.mp rooted
  have empty_iff : sortPairs pairs = [] ↔ pairs = [] := by
    rw [← length_eq_zero_iff, (sort_pairs_perm pairs).length_eq, length_eq_zero_iff]
  by_cases none : pairs = []
  · rw [if_pos none] at set ⊢
    refine ⟨Option.none, Option.none, ?_, ?_⟩
    · rw [buildNonMembership, if_neg named, sorted_leaves_iff.mpr ⟨keyed, rfl⟩, Option.map_some, if_pos (empty_iff.mpr none)]
    · rw [verifyNonMembershipCompact, if_neg (not_or.mpr ⟨keyed.named, not_or.mpr ⟨named, set⟩⟩)]
      exact decide_eq_true rfl
  · rw [if_neg none] at set ⊢
    refine ⟨_, _, ?_, compact_accepted keyed counted none named absent set⟩
    have free : ((sortPairs pairs)[(sortPairs pairs).findIdx fun leaf => key ≤ leaf.key]?.any fun leaf => leaf.key = key) = false := by
      cases here : (sortPairs pairs)[(sortPairs pairs).findIdx fun leaf => key ≤ leaf.key]? with
      | none => rfl
      | some leaf =>
        have larger := (@position_splits pairs key absent).2 leaf here
        exact decide_eq_false fun same => List.lt_irrefl key (same ▸ larger)
    rw [buildNonMembership, if_neg named, sorted_leaves_iff.mpr ⟨keyed, rfl⟩, Option.map_some, if_neg (mt empty_iff.mp none)]
    simp only [free, Bool.false_eq_true, if_false]

end Built

theorem state_proofs_hold (space : GoString) (pairs : List Pair) (keyed : WellKeyed space pairs) (held : HeldPairs pairs)
    (counted : pairs.length < 2 ^ 63) (hashed : Set Bytes) (safe : SafeHashes hashed)
    (inside : ∀ message ∈ rootMessages space (sortPairs pairs), message ∈ hashed) :
    ∃ top, root space pairs = some top ∧ (∀ others : List Pair, others.Perm pairs → root space others = some top) ∧
      (∀ pair ∈ pairs, ∃ path, buildMembership space pairs pair.key = some (top, pair.value, true, path) ∧
        verifyMembership space pair.key pair.value path top = true) ∧
      (∀ key, key ≠ [] → key ∉ pairs.map Pair.key → ∃ left right, buildNonMembership space pairs key = some (top, left, right, false) ∧
        verifyNonMembershipCompact space key top left right = true) ∧
      ∀ key value path, Held key → Held value → (∀ message ∈ membershipMessages space key value path, message ∈ hashed) →
        verifyMembership space key value path top = true → ⟨key, value⟩ ∈ pairs := by
  have rooted := root_iff.mpr ⟨keyed, rfl⟩
  have set := root_ne_zero safe held inside rooted
  refine ⟨_, rooted, fun others permuted => (root_order keyed permuted).trans rooted, ?_, ?_, ?_⟩
  · intro pair listed
    have present : pairs ≠ [] := ne_nil_of_mem listed
    rw [if_neg present] at set ⊢
    exact membership_built keyed listed set
  · intro key named absent
    exact non_membership_built keyed counted rooted set named absent
  · intro key value path keyHeld valueHeld offered accepted
    exact membership_sound safe.collisionFree held inside rooted keyHeld valueHeld offered accepted

-- The namespace has no length before it: the other one can go on with what follows this one, up to its own key.
def RunsInto (space : GoString) (leaf : Pair) (other : GoString) (leaf' : Pair) : Prop :=
  ∃ rest ≠ [], other = space ++ rest ∧ sized leaf.key ++ sized leaf.value = rest ++ (sized leaf'.key ++ sized leaf'.value)

theorem RunsInto.collides {space other : GoString} {leaf leaf' : Pair} (runs : RunsInto space leaf other leaf') :
    leafHash space leaf.key leaf.value = leafHash other leaf'.key leaf'.value ∧ space ≠ other := by
  obtain ⟨rest, some, rfl, spelled⟩ := runs
  refine ⟨congrArg Sha256.sum256 ?_, fun same => some (self_eq_append_right.mp same)⟩
  simp only [leafPreimage, append_assoc, cons_append, spelled]

theorem leaf_hash_unambiguous_iff (space other : GoString) (leaf leaf' : Pair) (held : HeldPairs [leaf, leaf'])
    (free : Sha256.CollisionFree {leafPreimage space leaf.key leaf.value, leafPreimage other leaf'.key leaf'.value}) :
    (leafHash space leaf.key leaf.value = leafHash other leaf'.key leaf'.value → space = other ∧ leaf = leaf') ↔
      ¬ RunsInto space leaf other leaf' ∧ ¬ RunsInto other leaf' space leaf := by
  constructor
  · intro unambiguous
    exact ⟨fun runs => runs.collides.2 (unambiguous runs.collides.1).1, fun runs => runs.collides.2 (unambiguous runs.collides.1.symm).1.symm⟩
  · rintro ⟨after, before⟩ same
    have preimages := free _ (.inl rfl) _ (.inr rfl) same
    have spaces : space = other := by
      by_contra apart
      simp only [leafPreimage, append_assoc, cons_append, append_cancel_left_eq, cons.injEq, true_and] at preimages
      rcases append_eq_append_iff.mp preimages with ⟨rest, longer, spelled⟩ | ⟨rest, longer, spelled⟩
      · exact after ⟨rest, fun none => apart (by rw [longer, none, append_nil]), longer, spelled⟩
      · exact before ⟨rest, fun none => apart (by rw [longer, none, append_nil]), longer, spelled⟩
    cases spaces
    obtain ⟨key, value⟩ := held leaf mem_cons_self
    obtain ⟨key', value'⟩ := held leaf' (mem_cons_of_mem _ mem_cons_self)
    exact ⟨rfl, leaf_preimage_injective key value key' value' preimages⟩

-- A value that reads as a key and a value lets the namespace a end in what stood before it.
theorem namespaces_share_leaf : leafHash (utf8 "a") [1] (sized [2] ++ sized [3]) =
    leafHash (utf8 "a" ++ sized [1] ++ putUint64 18) [2] [3] ∧ utf8 "a" ≠ utf8 "a" ++ sized [1] ++ putUint64 18 := by
  have same : leafPreimage (utf8 "a") [1] (sized [2] ++ sized [3]) = leafPreimage (utf8 "a" ++ sized [1] ++ putUint64 18) [2] [3] := by
    with_unfolding_all decide
  exact ⟨congrArg Sha256.sum256 same, by with_unfolding_all decide⟩

def threePairs : List Pair := [⟨utf8 "b", utf8 "2"⟩, ⟨utf8 "a", utf8 "1"⟩, ⟨utf8 "c", utf8 "3"⟩]

def threeLeaves : List Pair := [⟨utf8 "a", utf8 "1"⟩, ⟨utf8 "b", utf8 "2"⟩, ⟨utf8 "c", utf8 "3"⟩]

def threeMessages : List Bytes := rootMessages (utf8 "bank") threeLeaves

theorem three_pairs_evaluated :
    (∀ pair ∈ threePairs, pair.key ≠ [] ∧ pair.key.length < 2 ^ 63 ∧ pair.value.length < 2 ^ 63) ∧ (threePairs.map Pair.key).Nodup ∧
      (threeLeaves.Pairwise fun left right => left.key ≤ right.key) ∧
      (∀ first ∈ threeMessages, Sha256.sum256 first ≠ zeroHash ∧
        ∀ second ∈ threeMessages, Sha256.sum256 first = Sha256.sum256 second → first = second) := by
  decide +kernel

theorem three_keyed : WellKeyed (utf8 "bank") threePairs := by
  obtain ⟨sizes, distinct, -⟩ := three_pairs_evaluated
  exact ⟨by with_unfolding_all decide, fun pair listed => (sizes pair listed).1, distinct⟩

theorem three_sorted : sortPairs threePairs = threeLeaves :=
  sort_pairs_eq three_keyed (Perm.swap ..) three_pairs_evaluated.2.2.1

theorem three_inside : ∀ message ∈ rootMessages (utf8 "bank") (sortPairs threePairs), message ∈ threeMessages := by
  rw [three_sorted]
  exact fun _ listed => listed

theorem three_held : HeldPairs threePairs := fun pair listed => (three_pairs_evaluated.1 pair listed).2

theorem three_safe : SafeHashes (fun message => message ∈ threeMessages) := by
  obtain ⟨-, -, -, safe⟩ := three_pairs_evaluated
  exact ⟨fun first inFirst second inSecond => (safe first inFirst).2 second inSecond, fun message inside => (safe message inside).1⟩

theorem bank_leaves_apart : leafHash (utf8 "bank") (utf8 "b") (utf8 "2") ≠ leafHash (utf8 "bank") (utf8 "a") (utf8 "1") := by
  have apart : ∀ leaf leaf', ¬ RunsInto (utf8 "bank") leaf (utf8 "bank") leaf' := fun leaf leaf' runs => runs.collides.2 rfl
  have free : Sha256.CollisionFree {leafPreimage (utf8 "bank") (utf8 "b") (utf8 "2"), leafPreimage (utf8 "bank") (utf8 "a") (utf8 "1")} := by
    refine Sha256.collision_free_mono ?_ three_safe.collisionFree
    rintro message (rfl | rfl)
    · exact mem_cons_of_mem _ (mem_cons_of_mem _ mem_cons_self)
    · exact mem_cons_of_mem _ mem_cons_self
  intro same
  have equal := (leaf_hash_unambiguous_iff (utf8 "bank") (utf8 "bank") ⟨utf8 "b", utf8 "2"⟩ ⟨utf8 "a", utf8 "1"⟩
    (fun pair listed => three_held pair (take_subset 2 threePairs listed)) free).mpr ⟨apart _ _, apart _ _⟩ same
  exact absurd equal.2 (by with_unfolding_all decide)

theorem three_pairs_proved : ∃ top, root (utf8 "bank") threePairs = some top ∧
    (∃ path, buildMembership (utf8 "bank") threePairs (utf8 "b") = some (top, utf8 "2", true, path) ∧
      verifyMembership (utf8 "bank") (utf8 "b") (utf8 "2") path top = true) ∧
    ∃ left right, buildNonMembership (utf8 "bank") threePairs (utf8 "bb") = some (top, left, right, false) ∧
      verifyNonMembershipCompact (utf8 "bank") (utf8 "bb") top left right = true := by
  obtain ⟨top, rooted, -, member, absent, -⟩ := state_proofs_hold (utf8 "bank") threePairs three_keyed three_held (by decide) _ three_safe
    three_inside
  exact ⟨top, rooted, member ⟨utf8 "b", utf8 "2"⟩ mem_cons_self, absent (utf8 "bb") (by with_unfolding_all decide) (by with_unfolding_all decide)⟩

section Offers

-- What a neighbour proof of anyone's choice may be: it fits in memory and its hashes are among those considered.
structure Offered (hashed : Set Bytes) (space : GoString) (neighbor : AbsenceNeighbor) : Prop where
  key : Held neighbor.key
  value : Held neighbor.value
  messages : ∀ message ∈ membershipMessages space neighbor.key neighbor.value neighbor.path, message ∈ hashed

structure OfferedLeaves (hashed : Set Bytes) (space : GoString) (leaves : List Pair) : Prop where
  held : HeldPairs leaves
  messages : ∀ message ∈ rootMessages space (sortPairs leaves), message ∈ hashed

variable {hashed : Set Bytes} {space : GoString} {pairs : List Pair} {top : Hash} {node : Hash}

theorem path_messages_append {above : Hash} {path rest : List Step} (climbs : path.foldlM climb node = some above) :
    pathMessages node (path ++ rest) = pathMessages node path ++ pathMessages above rest := by
  induction path generalizing node with
  | nil =>
    cases climbs
    rfl
  | cons step path ih =>
    rw [foldlM_cons] at climbs
    obtain ⟨next, taken, climbs⟩ := Option.bind_eq_some_iff.mp climbs
    unfold climb at taken
    rw [cons_append, pathMessages, pathMessages]
    by_cases left : step.side = utf8 "left"
    · rw [if_pos left] at taken ⊢
      cases taken
      rw [if_pos left, ih climbs, cons_append]
    · by_cases right : step.side = utf8 "right"
      · rw [if_neg left, if_pos right] at taken ⊢
        cases taken
        rw [if_neg left, if_pos right, ih climbs, cons_append]
      · rw [if_neg left, if_neg right] at taken
        contradiction

theorem step_messages_listed {level : List Hash} {index : Nat} (here : level[index]? = some node) :
    ∀ message ∈ pathMessages node (pathStep level index), ∃ both ∈ MerkleTree.pairs level, message = nodePreimage both.1 both.2 := by
  have other : utf8 "right" ≠ utf8 "left" := by with_unfolding_all decide
  intro message listed
  unfold pathStep at listed
  by_cases even : index % 2 = 0
  · have twice : 2 * (index / 2) = index := by omega
    rw [if_pos even] at listed
    cases beside : level[index + 1]? with
    | none => simp [beside, pathMessages] at listed
    | some sibling =>
      simp only [beside, Option.map_some, Option.toList_some, pathMessages, if_neg other, if_pos, mem_singleton] at listed
      exact ⟨(node, sibling), pairs_get (twice.symm ▸ here) (twice.symm ▸ beside), listed⟩
  · have before : 2 * (index / 2) = index - 1 := by omega
    have back : 2 * (index / 2) + 1 = index := by omega
    rw [if_neg even] at listed
    cases beside : level[index - 1]? with
    | none => simp [beside, pathMessages] at listed
    | some sibling =>
      simp only [beside, Option.map_some, Option.toList_some, pathMessages, if_pos, mem_singleton] at listed
      exact ⟨(sibling, node), pairs_get (before.symm ▸ beside) (back.symm ▸ here), listed⟩

theorem path_messages_listed {rounds : Nat} {level : List Hash} {index : Nat} (here : level[index]? = some node) :
    ∀ message ∈ pathMessages node (pathLevels rounds level index), ∃ both ∈ climbPairs nodeHash rounds level, message = nodePreimage both.1 both.2 := by
  induction rounds generalizing level index node with
  | zero => simp [pathLevels, pathMessages]
  | succ rounds ih =>
    rcases level with _ | ⟨left, _ | ⟨right, rest⟩⟩
    · simp at here
    · simp [pathLevels, pathMessages]
    · obtain ⟨above, next, step⟩ := path_step_climbs here
      intro message listed
      rw [pathLevels, if_neg (by simp), path_messages_append step, mem_append] at listed
      rcases listed with early | late
      · obtain ⟨both, inside, same⟩ := step_messages_listed here message early
        exact ⟨both, mem_append_left _ inside, same⟩
      · obtain ⟨both, inside, same⟩ := ih next message late
        rw [next_level_eq] at inside
        exact ⟨both, mem_append_right _ inside, same⟩

theorem own_path_offered (held : HeldPairs pairs) (inside : ∀ message ∈ rootMessages space (sortPairs pairs), message ∈ hashed) {place : Nat}
    {leaf : Pair} (here : (sortPairs pairs)[place]? = some leaf) (index leafCount : UInt64) :
    Offered hashed space ⟨leaf.key, leaf.value, index, leafCount, merklePath (leafHashes space (sortPairs pairs)) place⟩ := by
  have listed := mem_of_getElem? here
  obtain ⟨key, value⟩ := held_sorted held leaf listed
  refine ⟨key, value, forall_mem_cons.mpr ⟨inside _ ?_, fun message offered => inside message ?_⟩⟩
  · exact mem_append_left _ (mem_cons_of_mem _ (mem_map.mpr ⟨leaf, listed, rfl⟩))
  · obtain ⟨both, hashed, rfl⟩ := path_messages_listed (hashes_get here) message offered
    refine mem_append_right _ (mem_map.mpr ⟨both, ?_, rfl⟩)
    rwa [leafHashes, length_map] at hashed

variable (safe : SafeHashes hashed) (held : HeldPairs pairs) (inside : ∀ message ∈ rootMessages space (sortPairs pairs), message ∈ hashed)
  (rooted : root space pairs = some top)

include safe held inside rooted

theorem neighbor_listed {neighbor : AbsenceNeighbor} (offered : Offered hashed space neighbor)
    (accepted : verifyNeighbor space neighbor top = true) : ⟨neighbor.key, neighbor.value⟩ ∈ pairs := by
  obtain ⟨-, -, -, member⟩ := of_decide_eq_true accepted
  exact membership_sound safe.collisionFree held inside rooted offered.key offered.value offered.messages member

theorem compact_shows_other {key : Bytes} {left right : Option AbsenceNeighbor} (offeredLeft : ∀ neighbor ∈ left, Offered hashed space neighbor)
    (offeredRight : ∀ neighbor ∈ right, Offered hashed space neighbor) (accepted : verifyNonMembershipCompact space key top left right = true) :
    pairs = [] ∨ ∃ pair ∈ pairs, pair.key ≠ key := by
  have below : ∀ {neighbor : AbsenceNeighbor}, neighbor.key < key → neighbor.key ≠ key := fun less same => List.lt_irrefl key (same ▸ less)
  have above : ∀ {neighbor : AbsenceNeighbor}, key < neighbor.key → neighbor.key ≠ key := fun less same => List.lt_irrefl key (same ▸ less)
  rw [verifyNonMembershipCompact.eq_def] at accepted
  split at accepted
  · contradiction
  · rcases left with _ | left <;> rcases right with _ | right
    · have empty : top = emptyRoot space := of_decide_eq_true accepted
      refine .inl (by_contra fun present => ?_)
      obtain ⟨tree, root, -, covered⟩ := root_tree held inside present rooted
      exact tree_not_empty safe.collisionFree covered (inside _ (mem_append_left _ mem_cons_self)) (root.trans empty)
    · obtain ⟨less, checked, -⟩ := of_decide_eq_true accepted
      exact .inr ⟨_, neighbor_listed safe held inside rooted (offeredRight right rfl) checked, above less⟩
    · obtain ⟨less, checked, -⟩ := of_decide_eq_true accepted
      exact .inr ⟨_, neighbor_listed safe held inside rooted (offeredLeft left rfl) checked, below less⟩
    · obtain ⟨less, checked, -⟩ := of_decide_eq_true accepted
      exact .inr ⟨_, neighbor_listed safe held inside rooted (offeredLeft left rfl) checked, below less⟩

theorem root_determines_pairs {others : List Pair} (offered : OfferedLeaves hashed space others) (same : root space others = some top) :
    others.Perm pairs := by
  have empty : emptyPreimage space ∈ hashed := inside _ (mem_append_left _ mem_cons_self)
  have bare : ∀ {list : List Pair}, list = [] → root space list = some top → top = emptyRoot space := by
    intro list none known
    obtain ⟨-, top_eq⟩ := root_iff.mp known
    rwa [if_pos none] at top_eq
  by_cases none : pairs = []
  · by_cases noOthers : others = []
    · rw [none, noOthers]
    · obtain ⟨tree, root, -, covered⟩ := root_tree offered.held offered.messages noOthers same
      exact absurd (root.trans (bare none rooted)) (tree_not_empty safe.collisionFree covered empty)
  · obtain ⟨tree, root, leaves, covered⟩ := root_tree held inside none rooted
    by_cases noOthers : others = []
    · exact absurd (root.trans (bare noOthers same)) (tree_not_empty safe.collisionFree covered empty)
    · obtain ⟨tree', root', leaves', covered'⟩ := root_tree offered.held offered.messages noOthers same
      have trees := hash_injective (state_binding safe.collisionFree) covered covered' (root.trans root'.symm)
      have sorted : sortPairs others = sortPairs pairs := by rw [← leaves, ← leaves', trees]
      exact ((sort_pairs_perm others).symm.trans (sorted ▸ Perm.refl _)).trans (sort_pairs_perm pairs)

theorem lone_pair_sound (few : pairs.length ≤ 1) {key : Bytes} {left right : Option AbsenceNeighbor}
    (offeredLeft : ∀ neighbor ∈ left, Offered hashed space neighbor) (offeredRight : ∀ neighbor ∈ right, Offered hashed space neighbor)
    (accepted : verifyNonMembershipCompact space key top left right = true) : key ∉ pairs.map Pair.key := by
  rcases compact_shows_other safe held inside rooted offeredLeft offeredRight accepted with rfl | ⟨other, listed, different⟩
  · exact not_mem_nil
  · match pairs with
    | [only] =>
      rw [mem_singleton.mp listed] at different
      intro present
      exact different (mem_singleton.mp present).symm
    | first :: second :: rest =>
      simp only [length_cons] at few
      omega

-- The smallest key is absent on the word of a neighbour that calls itself the first leaf.
theorem second_leaf_misleads (many : 1 < pairs.length) : ∃ pair ∈ pairs, ∃ neighbor, Offered hashed space neighbor ∧
    verifyNonMembershipCompact space pair.key top none (some neighbor) = true := by
  obtain ⟨keyed, top_eq⟩ := root_iff.mp rooted
  have present : pairs ≠ [] := ne_nil_of_length_pos (Nat.lt_trans Nat.zero_lt_one many)
  have set := root_ne_zero safe held inside rooted
  rw [if_neg present] at top_eq
  rw [top_eq] at set ⊢
  match leaves : sortPairs pairs with
  | [] => simp [← (sort_pairs_perm pairs).length_eq, leaves] at many
  | [_] => simp [← (sort_pairs_perm pairs).length_eq, leaves] at many
  | first :: second :: rest =>
    have here : (sortPairs pairs)[1]? = some second := by rw [leaves]; rfl
    have strict := sort_pairs_strict keyed
    rw [leaves, pairwise_cons] at strict
    have smaller : first.key < second.key := strict.1 second mem_cons_self
    have listed : first ∈ pairs := (sort_pairs_perm pairs).mem_iff.mp (leaves ▸ mem_cons_self ..)
    have listed' : second ∈ pairs := (sort_pairs_perm pairs).mem_iff.mp (mem_of_getElem? here)
    have member := leaf_membership keyed here set
    have offered := own_path_offered held inside here 0 1
    rw [← leaves]
    refine ⟨first, listed, _, offered, ?_⟩
    rw [verifyNonMembershipCompact, if_neg (not_or.mpr ⟨keyed.named, not_or.mpr ⟨keyed.keyed first listed, set⟩⟩)]
    exact decide_eq_true ⟨smaller, decide_eq_true ⟨keyed.keyed second listed', show (1 : UInt64) ≠ 0 by decide,
      show (0 : UInt64) < 1 by decide, member⟩, rfl⟩

end Offers

-- Index and leaf count are the prover's word, so any pair with another key passes for the neighbour that is missing.
theorem absence_sound_iff (space : GoString) (pairs : List Pair) (top : Hash) (rooted : root space pairs = some top) (held : HeldPairs pairs)
    (hashed : Set Bytes) (safe : SafeHashes hashed) (inside : ∀ message ∈ rootMessages space (sortPairs pairs), message ∈ hashed) :
    ((∀ key left right, (∀ neighbor ∈ left, Offered hashed space neighbor) → (∀ neighbor ∈ right, Offered hashed space neighbor) →
        verifyNonMembershipCompact space key top left right = true → key ∉ pairs.map Pair.key) ∧
      ∀ (proof : QueryProof.Proof) (chainID : GoString) (height : Height), proof.found = false → proof.space = space →
        (∀ neighbor ∈ proof.absenceLeft, Offered hashed space neighbor) → (∀ neighbor ∈ proof.absenceRight, Offered hashed space neighbor) →
        OfferedLeaves hashed space proof.namespaceLeaves → QueryProof.verify proof chainID height top = .ok () →
        proof.key ∉ pairs.map Pair.key) ↔
      pairs.length ≤ 1 := by
  constructor
  · rintro ⟨compact, -⟩
    by_contra many
    obtain ⟨pair, listed, neighbor, offered, accepted⟩ := second_leaf_misleads safe held inside rooted (Nat.lt_of_not_le many)
    refine compact pair.key none (some neighbor) (fun _ none => nomatch none) ?_ accepted (mem_map_of_mem listed)
    rintro _ ⟨⟩
    exact offered
  · intro few
    refine ⟨fun key left right => lone_pair_sound safe held inside rooted few, ?_⟩
    intro proof chainID height absent named offeredLeft offeredRight offeredLeaves accepted
    simp only [QueryProof.verify, ok_iff] at accepted
    obtain ⟨-, -, -, rootGiven, -, holds⟩ := accepted
    have stateRoot : proof.stateRoot = top := rootGiven.resolve_left (root_ne_zero safe held inside rooted)
    rw [QueryProof.holds, absent, named, stateRoot] at holds
    by_cases compact : proof.absenceLeft.isSome ∨ proof.absenceRight.isSome
    · rw [if_neg Bool.false_ne_true, if_pos compact] at holds
      exact lone_pair_sound safe held inside rooted few offeredLeft offeredRight holds
    · rw [if_neg Bool.false_ne_true, if_neg compact] at holds
      obtain ⟨-, -, -, unlisted, same⟩ := of_decide_eq_true holds
      intro present
      obtain ⟨pair, listed, key⟩ := mem_map.mp present
      exact unlisted pair ((root_determines_pairs safe held inside rooted offeredLeaves same).mem_iff.mpr listed) key

def threeRoot : Hash := merkleRoot (leafHashes (utf8 "bank") threeLeaves)

def outerNeighbor (leaf : Pair) (place : Nat) (index : UInt64) : AbsenceNeighbor :=
  ⟨leaf.key, leaf.value, index, 2, merklePath (leafHashes (utf8 "bank") threeLeaves) place⟩

def middleProof : QueryProof.Proof :=
  { QueryProof.Proof.zero with
    schemaVersion := utf8 "v1", chainID := utf8 "vexo", height := 1, space := utf8 "bank", key := utf8 "b", stateRoot := threeRoot,
    leafHash := leafHash (utf8 "bank") (utf8 "b") [], absenceLeft := some (outerNeighbor ⟨utf8 "a", utf8 "1"⟩ 0 0),
    absenceRight := some (outerNeighbor ⟨utf8 "c", utf8 "3"⟩ 2 1) }

theorem middle_evaluated : (QueryProof.verify middleProof (utf8 "vexo") 1 threeRoot).isOk = true ∧
      verifyNonMembershipCompact (utf8 "bank") (utf8 "b") threeRoot middleProof.absenceLeft middleProof.absenceRight = true := by
  decide +kernel

-- The middle of three keys is proved absent.
theorem middle_key_denied : root (utf8 "bank") threePairs = some threeRoot ∧ utf8 "b" ∈ threePairs.map Pair.key ∧
    middleProof.key = utf8 "b" ∧ middleProof.found = false ∧
    QueryProof.verify middleProof (utf8 "vexo") 1 threeRoot = .ok () ∧
    verifyNonMembershipCompact (utf8 "bank") (utf8 "b") threeRoot middleProof.absenceLeft middleProof.absenceRight = true := by
  obtain ⟨verified, compact⟩ := middle_evaluated
  obtain ⟨⟨⟩, accepted⟩ := exists_of_is_ok verified
  refine ⟨root_iff.mpr ⟨three_keyed, ?_⟩, mem_cons_self .., rfl, rfl, accepted, compact⟩
  rw [three_sorted]
  rfl

def lonePair : List Pair := [⟨utf8 "a", utf8 "1"⟩]

theorem lone_evaluated : ∀ first ∈ rootMessages (utf8 "bank") lonePair, Sha256.sum256 first ≠ zeroHash ∧
    ∀ second ∈ rootMessages (utf8 "bank") lonePair, Sha256.sum256 first = Sha256.sum256 second → first = second := by
  decide +kernel

theorem lone_key_never_denied : root (utf8 "bank") lonePair = some (leafHash (utf8 "bank") (utf8 "a") (utf8 "1")) ∧
    ∀ left right, (∀ neighbor ∈ left, Offered (fun message => message ∈ rootMessages (utf8 "bank") lonePair) (utf8 "bank") neighbor) →
      (∀ neighbor ∈ right, Offered (fun message => message ∈ rootMessages (utf8 "bank") lonePair) (utf8 "bank") neighbor) →
      ¬ verifyNonMembershipCompact (utf8 "bank") (utf8 "a") (leafHash (utf8 "bank") (utf8 "a") (utf8 "1")) left right = true := by
  have keyed : WellKeyed (utf8 "bank") lonePair := ⟨by decide +kernel, by decide +kernel, by decide +kernel⟩
  have sorted : sortPairs lonePair = lonePair := sort_pairs_eq keyed (Perm.refl _) (pairwise_singleton _ _)
  have rooted : root (utf8 "bank") lonePair = some (leafHash (utf8 "bank") (utf8 "a") (utf8 "1")) := by
    refine root_iff.mpr ⟨keyed, ?_⟩
    rw [sorted]
    rfl
  have held : HeldPairs lonePair := by
    rintro pair ⟨⟩
    · unfold Held
      decide +kernel
    · contradiction
  have safe : SafeHashes (fun message => message ∈ rootMessages (utf8 "bank") lonePair) :=
    ⟨fun first inFirst second inSecond => (lone_evaluated first inFirst).2 second inSecond, fun message inside => (lone_evaluated message inside).1⟩
  obtain ⟨sound, -⟩ := (absence_sound_iff (utf8 "bank") lonePair _ rooted held _ safe (by rw [sorted]; exact fun _ listed => listed)).mpr
    (Nat.le_refl 1)
  exact ⟨rooted, fun left right offeredLeft offeredRight accepted =>
    sound (utf8 "a") left right offeredLeft offeredRight accepted mem_cons_self⟩

end Vexo.StateProof

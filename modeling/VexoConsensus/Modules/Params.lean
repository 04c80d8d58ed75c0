import VexoConsensus.App.CanonicalTxs

namespace Vexo.Params

open ByteCodec Checks App OrderedMap

def namespaceName : GoString := utf8 "params"

structure Param where
  (module key : GoString)
  value : Bytes
  authority : GoString
  version : UInt64
deriving DecidableEq

structure Change where
  (module key : GoString)
  value : Bytes
  authority : GoString
deriving DecidableEq

-- The records of the params namespace; one that cannot be read is none.
abbrev Records := Table Bytes (Option Param)

def paramKey (module key : GoString) : Bytes := module ++ 47 :: key

-- What is read back: json.Marshal puts the replacement character in place of bytes that are not UTF-8.
def Param.written (param : Param) : Param :=
  { param with module := Utf8.toValid param.module, key := Utf8.toValid param.key, authority := Utf8.toValid param.authority }

namespace Keeper

def get (records : Records) (module key : GoString) : Except AppErr (Option Param) := do
  require (module ≠ [] ∧ key ≠ []) .invalidParam
  match records.lookup (paramKey module key) with
  | none => return none
  | some none => .error .jsonError
  | some (some param) => return some param

-- The parameter a change gives over the one that is there.
def changed (change : Change) (previous : Option Param) : Except AppErr Param := do
  require (previous.all fun param => param.authority = [] ∨ param.authority = change.authority) .unauthorizedParam
  return ⟨change.module, change.key, change.value, change.authority, (previous.map Param.version).getD 0 + 1⟩

def set (records : Records) (change : Change) : Except AppErr (Param × Records) := do
  require (change.module ≠ [] ∧ change.key ≠ []) .invalidParam
  let previous ← get records change.module change.key
  let param ← changed change previous
  return (param, records.insert (paramKey param.module param.key) (some param.written))

end Keeper

structure Delivery where
  records : Records
  -- The change is added to the pending ones.
  change : Change
  data : Bytes

def decodeValue (value : GoString) : Except AppErr Bytes :=
  match Base64.decodeStd value with
  | some value => .ok value
  | none => .error .corruptBase64

-- Every part of the transaction counts, those of the execution tags as well; no gas is consumed.
def deliverTx (records : Records) (tx : Tx) : Except Failure Delivery :=
  match tx.splitOn 58 with
  | [name, action, authority, module, key, value] => do
      require (name = namespaceName ∧ action = utf8 "set") ⟨2, .invalidParamsTx⟩
      let value ← failing 3 (decodeValue value)
      let change : Change := ⟨module, key, value, authority⟩
      let (param, records) ← failing 4 (Keeper.set records change)
      return ⟨records, change, Decimal.format param.version.toNat⟩
  | _ => .error ⟨2, .invalidParamsTx⟩

end Vexo.Params

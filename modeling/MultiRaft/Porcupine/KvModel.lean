import Mathlib.Data.List.Dedup
import MultiRaft.Porcupine.Checker

/-!
# `models/kv.go`: the key/value store for the checker

The model describes the value of one key; `Partition` splits a history by its keys.
-/

namespace MultiRaft.Porcupine

/-- 0 is a get, 1 is a put, and everything else is an append. -/
structure KvInput where
  op : UInt8
  key : String
  value : String
  deriving DecidableEq

structure KvOutput where
  value : String
  deriving DecidableEq

/-- The map that `Partition` fills, one operation after the other. -/
def operationsByKey (history : List (Operation KvInput KvOutput)) :
    String → List (Operation KvInput KvOutput) :=
  history.foldl (fun m v => Function.update m v.input.key (m v.input.key ++ [v])) fun _ => []

def kvPartition (history : List (Operation KvInput KvOutput)) :
    List (List (Operation KvInput KvOutput)) :=
  let m := operationsByKey history
  let keys := (history.map (·.input.key)).dedup.mergeSort fun one two => decide (one ≤ two)
  keys.map m

def kvStep (st : String) (inp : KvInput) (out : KvOutput) : Bool × String :=
  if inp.op = 0 then (out.value == st, st)
  else if inp.op = 1 then (true, inp.value)
  else (true, st ++ inp.value)

def kvModel : Model String KvInput KvOutput where
  partition := kvPartition
  init := ""
  step := kvStep

end MultiRaft.Porcupine

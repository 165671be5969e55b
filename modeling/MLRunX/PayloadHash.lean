import Mathlib.Data.List.Sort
import MLRunX.Text

namespace MLRunX.PayloadHash

open Text

/-- A double is kept as its bits. -/
abbrev F64 := UInt64

def F64.isFinite (x : F64) : Bool := (x &&& 0x7FF0000000000000) != 0x7FF0000000000000

def leBytes (x : UInt64) : List UInt8 := (List.range 8).map (fun i => (x >>> (8 * i).toUInt64).toUInt8)

structure MetricPayload where
  name : String
  value : F64
  step : Int64
  deriving DecidableEq, Repr

structure ParamPayload where
  name : String
  value : String
  deriving DecidableEq, Repr

structure TagPayload where
  key : String
  value : String
  deriving DecidableEq, Repr

structure EventPayload where
  level : String
  source : String
  message : String
  step : Option Int64
  timestamp : Option F64
  deriving DecidableEq, Repr

def MetricPayload.cmp (a b : MetricPayload) : Ordering := (compare a.name b.name).then (compare a.step b.step)

def ParamPayload.cmp (a b : ParamPayload) : Ordering := compare a.name b.name

def TagPayload.cmp (a b : TagPayload) : Ordering := compare a.key b.key

def EventPayload.cmp (a b : EventPayload) : Ordering :=
  (compare a.step b.step).then <| (compare a.level b.level).then <| (compare a.source b.source).then <|
    (compare a.message b.message).then (compare (a.timestamp.getD 0) (b.timestamp.getD 0))

/-- The stable sort by a comparison. -/
def sortBy {α : Type} (cmp : α → α → Ordering) (items : List α) : List α :=
  items.insertionSort (fun a b => cmp a b ≠ .gt)

def MetricPayload.bytes (m : MetricPayload) : List UInt8 :=
  Text.bytes m.name ++ leBytes m.step.toUInt64 ++ leBytes m.value

def ParamPayload.bytes (p : ParamPayload) : List UInt8 := Text.bytes p.name ++ Text.bytes p.value

def TagPayload.bytes (t : TagPayload) : List UInt8 := Text.bytes t.key ++ Text.bytes t.value

def EventPayload.bytes (e : EventPayload) : List UInt8 :=
  Text.bytes e.level ++ Text.bytes e.source ++ Text.bytes e.message ++ leBytes (e.step.getD 0).toUInt64 ++
    leBytes (e.timestamp.getD 0)

/-- What the hasher is fed with, one item behind the other. -/
def payloadBytes (metrics : List MetricPayload) (params : List ParamPayload) (tags : List TagPayload)
    (events : List EventPayload) : List UInt8 :=
  (sortBy MetricPayload.cmp metrics).flatMap MetricPayload.bytes ++
    (sortBy ParamPayload.cmp params).flatMap ParamPayload.bytes ++
    (sortBy TagPayload.cmp tags).flatMap TagPayload.bytes ++
    (sortBy EventPayload.cmp events).flatMap EventPayload.bytes

def hexEncode (bytes : List UInt8) : String :=
  String.ofList (bytes.flatMap (fun b => [Nat.digitChar (b.toNat / 16), Nat.digitChar (b.toNat % 16)]))

def computePayloadHash (sha256 : List UInt8 → List UInt8) (metrics : List MetricPayload)
    (params : List ParamPayload) (tags : List TagPayload) (events : List EventPayload) : String :=
  hexEncode (sha256 (payloadBytes metrics params tags events))

example : leBytes 258 = [2, 1, 0, 0, 0, 0, 0, 0] := by decide

example : payloadBytes [⟨"b", 1, 1⟩, ⟨"a", 2, 1⟩] [] [] [] = payloadBytes [⟨"a", 2, 1⟩, ⟨"b", 1, 1⟩]
    [] [] [] := by
  decide +kernel

end MLRunX.PayloadHash

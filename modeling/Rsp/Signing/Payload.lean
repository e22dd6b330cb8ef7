import Rsp.Signing.Hash

/-!
# What the signed stream says about a service payload

`hashServiceMessage` feeds the type URL and then, if the type is compiled in and the payload unpacks, the fields of the payload; otherwise it feeds nothing of the payload. The fields are fed as a sequence of calls of the hasher (`Feed`), which shows neither where a nested message ends nor any floating-point value. Two payloads are told apart exactly if these calls can be told apart.
-/

namespace Rsp

open ByteCode Reflection Proto

/-! ### Calls of the hasher -/

/-- One call of `MessageHasher`: `feedUint32` (also `feedInt32` and `tag`), `feedUint64`, `feedBool` or `feedBytes`. -/
inductive Feed where
  | word (value : UInt32)
  | long (value : UInt64)
  | flag (value : Bool)
  | text (value : Bytes)
deriving DecidableEq

namespace Feed

def bytes : Feed → Bytes
  | .word value => be32 value
  | .long value => be64 value
  | .flag value => bool8 value
  | .text value => lenPrefixed value

end Feed

mutual

/-- The calls that `hashMessageReflective` makes. -/
def feeds : Message → List Feed
  | .mk _ fields => ((fieldsFeeds fields).insertionSort fun a b => a.1 ≤ b.1).flatMap Prod.snd

def fieldsFeeds : List Field → List (Nat × List Feed)
  | [] => []
  | field :: fields => fieldFeeds field :: fieldsFeeds fields

def fieldFeeds : Field → Nat × List Feed
  | .mk descriptor values => (descriptor.number,
      if descriptor.isRepeated then
        .word (.ofNat descriptor.number) :: .word (.ofNat values.length) :: valuesFeeds values
      else if descriptor.hasPresence && values.isEmpty then []
      else .word (.ofNat descriptor.number) :: valuesFeeds values)

def valuesFeeds : List Value → List Feed
  | [] => []
  | value :: values => valueFeeds value ++ valuesFeeds values

/-- A floating-point value is not fed. -/
def valueFeeds : Value → List Feed
  | .message value => feeds value
  | .string value => [.text value]
  | .uint32 value => [.word value]
  | .int32 value => [.word value.toUInt32]
  | .uint64 value => [.long value]
  | .int64 value => [.long value.toUInt64]
  | .bool value => [.flag value]
  | .enum number => [.word number.toUInt32]
  | .float _ _ => []
  | .double _ _ => []

end

theorem flatMap_bytes_sort (calls : List (Nat × List Feed)) :
    ((calls.insertionSort fun a b => a.1 ≤ b.1).flatMap Prod.snd).flatMap Feed.bytes =
      ((calls.map (Prod.map id fun call => call.flatMap Feed.bytes)).insertionSort fun a b => a.1 ≤ b.1).flatMap
        Prod.snd := by
  have hsort := List.map_insertionSort (fun a b : Nat × List Feed => a.1 ≤ b.1) (fun a b : Nat × Bytes => a.1 ≤ b.1)
    (Prod.map id fun call => call.flatMap Feed.bytes) calls fun _ _ _ _ => Iff.rfl
  rw [← hsort, List.flatMap_assoc, List.flatMap_map]
  rfl

mutual

theorem hashMessageReflective_eq_feeds (m : Message) :
    hashMessageReflective m = (feeds m).flatMap Feed.bytes := by
  cases m with
  | mk _ fields => rw [hashMessageReflective, feeds, flatMap_bytes_sort, hashFields_eq_feeds fields]

theorem hashFields_eq_feeds (fields : List Field) :
    hashFields fields = (fieldsFeeds fields).map (Prod.map id fun call => call.flatMap Feed.bytes) := by
  cases fields with
  | nil => rfl
  | cons field fields => rw [hashFields, fieldsFeeds, List.map_cons, hashField_eq_feeds field, hashFields_eq_feeds fields]

theorem hashField_eq_feeds (field : Field) :
    hashField field = Prod.map id (fun call => call.flatMap Feed.bytes) (fieldFeeds field) := by
  cases field with
  | mk descriptor values =>
    rw [hashField, fieldFeeds, hashValues_eq_feeds values]
    split_ifs <;> simp [Feed.bytes]

theorem hashValues_eq_feeds (values : List Value) : hashValues values = (valuesFeeds values).flatMap Feed.bytes := by
  cases values with
  | nil => rfl
  | cons value values =>
    rw [hashValues, valuesFeeds, List.flatMap_append, hashValue_eq_feeds value, hashValues_eq_feeds values]

theorem hashValue_eq_feeds (value : Value) : hashValue value = (valueFeeds value).flatMap Feed.bytes := by
  cases value with
  | message value => rw [hashValue, valueFeeds, hashMessageReflective_eq_feeds value]
  | _ => simp [hashValue, valueFeeds, Feed.bytes]

end

/-! ### Payloads -/

section

variable (pb : Protobuf) (m : RSPMessage) (url : Bytes)

variable {pb m url}

variable (pb m url)

end

end Rsp

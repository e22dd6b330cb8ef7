import Rsp.Transport.Framing

/-!
# JSON frames

`JsonEncoding` is the frame format whose payload is the JSON text of a message. Its `encodeMessage` never fails: if protobuf cannot write a message as JSON, it gives the text of a message without fields instead.
-/

namespace Rsp

open Talk

/-- Protobuf's conversions of `RSPMessage`, with the options the encoding sets; `none` is an error. -/
structure JsonUtil where
  messageToJsonString : Proto.RSPMessage → Option Bytes
  jsonStringToMessage : Bytes → Option Proto.RSPMessage

namespace JsonUtil

def emptyObject : Bytes := ascii "\x7b\x7d"

/-- What protobuf promises: a text it writes is read back, and a message without fields is written as an empty object. -/
structure Lawful (json : JsonUtil) : Prop where
  back : ∀ message text, json.messageToJsonString message = some text → json.jsonStringToMessage text = some message
  empty : json.messageToJsonString {} = some emptyObject

def encodeMessage (json : JsonUtil) (message : Proto.RSPMessage) : Bytes :=
  (json.messageToJsonString message).getD emptyObject

/-- The frames of `JsonEncoding`. -/
def format (json : JsonUtil) : FrameFormat Proto.RSPMessage where
  magic := 0x5253504A
  serialize message := some (json.encodeMessage message)
  parse := json.jsonStringToMessage

/-- If `writeMessage` returns true it has sent one frame, and whoever reads it, in whatever pieces, gets the message. -/
def SendsFaithfully (json : JsonUtil) (message : Proto.RSPMessage) : Prop :=
  ∀ (sending : Calls) (sizes : Nat → Nat), ((json.format.writeMessage message).eval sending 0 []).result = true →
    let stream := ((json.format.writeMessage message).eval sending 0 []).sent
    let received := json.format.readMessage.eval (fun i => some (sizes i)) 0 stream
    received.result = some message ∧ received.rest = []

variable {json : JsonUtil} {message : Proto.RSPMessage}

theorem sendsFaithfully_of_parse (h : json.jsonStringToMessage (json.encodeMessage message) = some message) :
    json.SendsFaithfully message := by
  intro sending sizes hwritten
  obtain ⟨_, _, htrace⟩ := trace_eval sending (json.format.writeMessage message) 0 []
  rw [hwritten] at htrace
  obtain ⟨payload, hpayload, hlength, hsent⟩ := FrameFormat.trace_writeMessage htrace
  obtain rfl : json.encodeMessage message = payload := Option.some.inj hpayload
  have hparse : json.format.parse (json.encodeMessage message) = some message := h
  obtain ⟨call, hread⟩ := FrameFormat.eval_readMessage sizes [] 0 hlength hparse
  rw [List.append_nil, ← hsent] at hread
  intro stream received
  have hreceived : received = ⟨some message, call, [], []⟩ := hread
  rw [hreceived]
  exact ⟨rfl, rfl⟩

end JsonUtil

/-- A message is sent as itself or not at all exactly if protobuf can write it as JSON. -/
theorem json_sends_faithfully_iff (json : JsonUtil) (hjson : json.Lawful) (message : Proto.RSPMessage) :
    json.SendsFaithfully message ↔ (json.messageToJsonString message).isSome = true := by
  constructor
  · intro hfaithful
    by_contra hnone
    rw [Option.not_isSome_iff_eq_none] at hnone
    have hwrite : (json.format.writeMessage message).eval (fun _ => some 7) 0 [] =
        ⟨true, 2, [], json.format.header JsonUtil.emptyObject ++ JsonUtil.emptyObject⟩ := by
      simp only [FrameFormat.writeMessage, JsonUtil.format, JsonUtil.encodeMessage, hnone, Option.getD_none]
      rfl
    -- the reader gets the message without fields, which protobuf can write
    have hparse : json.format.parse JsonUtil.emptyObject = some {} := hjson.back {} _ hjson.empty
    obtain ⟨call, hread⟩ := FrameFormat.eval_readMessage (fun _ => 7) [] 0 (by decide) hparse
    rw [List.append_nil] at hread
    have hreceived := (hfaithful (fun _ => some 7) (fun _ => 7) (by rw [hwrite])).1
    rw [hwrite, hread, Option.some.injEq] at hreceived
    rw [← hreceived, hjson.empty] at hnone
    cases hnone
  · intro hsome
    obtain ⟨text, htext⟩ := Option.isSome_iff_exists.mp hsome
    apply JsonUtil.sendsFaithfully_of_parse
    rw [JsonUtil.encodeMessage, htext, Option.getD_some]
    exact hjson.back message text htext

/-! ### A message that protobuf cannot write -/

/-- A stand-in for protobuf that writes messages with nothing but a nonce, and fails on all others. -/
def nonceJson : JsonUtil where
  messageToJsonString
    | ⟨none, none, none, .notSet, none, none, none, [], [], []⟩ => some JsonUtil.emptyObject
    | ⟨none, none, none, .notSet, none, some nonce, none, [], [], []⟩ => some (0x6E :: nonce.value)
    | _ => none
  jsonStringToMessage
    | 0x6E :: value => some { nonce := some ⟨value⟩ }
    | _ => some {}

theorem lawful_nonceJson : nonceJson.Lawful where
  back message text h := by
    simp only [nonceJson] at h
    split at h
    · obtain rfl := Option.some.inj h
      rfl
    · obtain rfl := Option.some.inj h
      rfl
    · cases h
  empty := rfl

/-- A service message of a type that the node does not know. -/
def unknownService : Proto.RSPMessage := { serviceMessage := some { typeUrl := ascii "type.rsp/rsp.proto.Unknown" } }

/-- A message with a nonce arrives as it is. -/
theorem json_sends_faithfully_iff_nonce : nonceJson.SendsFaithfully { nonce := some ⟨[1, 2]⟩ } :=
  (json_sends_faithfully_iff nonceJson lawful_nonceJson _).mpr rfl

/-- `writeMessage` returns true for the unknown service message, and a message without fields arrives. -/
theorem json_sends_empty_message :
    nonceJson.Lawful ∧ ((nonceJson.format.writeMessage unknownService).eval (fun _ => some 7) 0 []).result = true ∧
      (nonceJson.format.readMessage.eval (fun _ => some 7) 0
        ((nonceJson.format.writeMessage unknownService).eval (fun _ => some 7) 0 []).sent).result = some {} ∧
      unknownService ≠ {} :=
  ⟨lawful_nonceJson, rfl, rfl, by simp [unknownService]⟩

end Rsp

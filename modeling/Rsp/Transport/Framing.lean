import Rsp.Lib.Reader
import Rsp.Proto.Messages
import Rsp.Transport.Connection

/-!
# Frames

The two encodings of `common/encoding` put a message into a frame: a magic, the length of the payload, both big-endian, and the payload. They differ in the magic and in the payload's format (`FrameFormat`), which for the protobuf encoding is protobuf's own.
-/

namespace Rsp

open Talk ByteCode

def maxFrameLength : Nat := 16 * 1024 * 1024

def frameHeaderSize : Nat := 8

/-- `readUint32` of the encodings. -/
def readUint32 (data : Bytes) : UInt32 :=
  joinBytes (data.getD 0 0) (data.getD 1 0) (data.getD 2 0) (data.getD 3 0)

/-- What an encoding adds to the frames: its magic, and the payload of a message, both ways. -/
structure FrameFormat (Message : Type) where
  magic : UInt32
  serialize : Message → Option Bytes
  parse : Bytes → Option Message

namespace FrameFormat

variable {Message : Type} (format : FrameFormat Message)

/-- The payload's format reads back what it writes. -/
def ParsesBack : Prop := ∀ message payload, format.serialize message = some payload → format.parse payload = some message

def header (payload : Bytes) : Bytes := be32 format.magic ++ be32 (.ofNat payload.length)

def readMessage : Talk (Option Message) := do
  match ← Connection.readExact frameHeaderSize with
  | none => return none
  | some header =>
    if readUint32 header ≠ format.magic then return none
    let payloadLength := readUint32 (header.drop 4)
    if payloadLength.toNat > maxFrameLength then return none
    match ← Connection.readExact payloadLength.toNat with
    | none => return none
    | some payload => return format.parse payload

def writeMessage (message : Message) : Talk Bool := do
  match format.serialize message with
  | none => return false
  | some payload =>
    if payload.length > maxFrameLength then return false
    if ← Connection.sendAll (format.header payload) then Connection.sendAll payload
    else return false

/-- Messages written one after the other, up to the first that fails. -/
def writeMessages : List Message → Talk Bool
  | [] => return true
  | message :: messages => do
    if ← format.writeMessage message then writeMessages messages
    else return false

/-- The messages that at most `rounds` rounds of `Encoding::readLoop` enqueue; the loop ends at the first read that fails. -/
def readLoop : (rounds : Nat) → Talk (List Message)
  | 0 => return []
  | rounds + 1 => do
    match ← format.readMessage with
    | none => return []
    | some message => return message :: (← readLoop rounds)

end FrameFormat

/-- The frames of `ProtobufEncoding`, over protobuf's `SerializeToString` and `ParseFromArray`. -/
def protobufFormat (serializeToString : Proto.RSPMessage → Option Bytes)
    (parseFromArray : Bytes → Option Proto.RSPMessage) : FrameFormat Proto.RSPMessage where
  magic := 0x52535050
  serialize := serializeToString
  parse := parseFromArray

namespace FrameFormat

variable {Message : Type} {format : FrameFormat Message} {taken given : Bytes}

/-! ### What is read -/

theorem be32_readUint32 {data rest : Bytes} (hlength : data.length = 4) : be32 (readUint32 (data ++ rest)) = data := by
  match data, hlength with
  | [_, _, _, _], _ => exact be32_joinBytes ..

theorem readUint32_be32 (value : UInt32) (rest : Bytes) : readUint32 (be32 value ++ rest) = value :=
  be32_injective (be32_readUint32 (be32_length value))

theorem readUint32_drop_four (value : UInt32) (rest : Bytes) (other : UInt32) :
    readUint32 ((be32 other ++ (be32 value ++ rest)).drop 4) = value := by
  rw [← be32_length other, List.drop_left, readUint32_be32]

/-- `readMessage` succeeds only on one whole frame with a short enough payload. -/
theorem trace_readMessage {message : Message} (h : Trace format.readMessage taken given (.done (some message))) :
    ∃ payload, payload.length ≤ maxFrameLength ∧ taken = format.header payload ++ payload ∧
      format.parse payload = some message := by
  rcases h.bind_inv with ⟨_, _, _, hrunning⟩ | ⟨header, taken₁, given₁, taken₂, given₂, rfl, rfl, hheader, hafter⟩
  · exact absurd rfl (hrunning _)
  obtain ⟨rfl, hread⟩ := Connection.trace_readExact hheader
  cases header with
  | none => cases hafter.done_inv.2.2
  | some header =>
    obtain ⟨hsize, rfl⟩ := hread _ rfl
    simp only at hafter
    by_cases hmagic : readUint32 header ≠ format.magic
    · rw [if_pos hmagic] at hafter
      cases hafter.done_inv.2.2
    rw [if_neg hmagic] at hafter
    by_cases hmax : (readUint32 (header.drop 4)).toNat > maxFrameLength
    · rw [if_pos hmax] at hafter
      cases hafter.done_inv.2.2
    rw [if_neg hmax] at hafter
    rcases hafter.bind_inv with ⟨_, _, _, hrunning⟩ | ⟨payload, taken₁, given₁, taken₂, given₂, rfl, rfl, hpayload, hparse⟩
    · exact absurd rfl (hrunning _)
    obtain ⟨rfl, hread⟩ := Connection.trace_readExact hpayload
    cases payload with
    | none => cases hparse.done_inv.2.2
    | some payload =>
      obtain ⟨hlength, rfl⟩ := hread _ rfl
      obtain ⟨rfl, -, hdone⟩ := hparse.done_inv
      refine ⟨payload, by omega, ?_, (Talk.done.inj hdone).symm⟩
      have hfirst : be32 format.magic = header.take 4 := by
        rw [← not_not.mp hmagic]
        conv_lhs => rw [← List.take_append_drop 4 header]
        exact be32_readUint32 (by rw [List.length_take, hsize]; rfl)
      have hsecond : be32 (.ofNat payload.length) = header.drop 4 := by
        rw [hlength, UInt32.ofNat_toNat]
        conv_lhs => rw [← List.append_nil (header.drop 4)]
        exact be32_readUint32 (by rw [List.length_drop, hsize]; rfl)
      rw [FrameFormat.header, hfirst, hsecond, List.take_append_drop, List.append_nil]

theorem eval_readMessage (sizes : Nat → Nat) {message : Message} {payload : Bytes} (rest : Bytes) (call : Nat)
    (hlength : payload.length ≤ maxFrameLength) (hparse : format.parse payload = some message) :
    ∃ call', format.readMessage.eval (fun i => some (sizes i)) call (format.header payload ++ payload ++ rest) =
      ⟨some message, call', rest, []⟩ := by
  have hsize : (format.header payload).length = frameHeaderSize := rfl
  have hpayload : (UInt32.ofNat payload.length).toNat = payload.length := by
    refine UInt32.toNat_ofNat_of_lt' (lt_of_le_of_lt hlength ?_)
    decide
  have hmagic : readUint32 (format.header payload) = format.magic := readUint32_be32 _ _
  have hcount : readUint32 ((format.header payload).drop 4) = .ofNat payload.length := by
    have h := readUint32_drop_four (.ofNat payload.length) [] format.magic
    rwa [List.append_nil] at h
  obtain ⟨call₁, hheader⟩ := Connection.eval_readExact sizes frameHeaderSize
    (format.header payload ++ payload ++ rest) call (by simp [hsize])
  obtain ⟨call₂, hread⟩ := Connection.eval_readExact sizes payload.length (payload ++ rest) call₁ (by simp)
  rw [List.append_assoc, ← hsize, List.take_left, List.drop_left, hsize] at hheader
  rw [List.take_left, List.drop_left] at hread
  refine ⟨call₂, ?_⟩
  rw [readMessage, eval_bind, List.append_assoc, hheader]
  simp only [hmagic, ne_eq, not_true, if_false, hcount, hpayload, if_neg (Nat.not_lt.mpr hlength), eval_bind, hread,
    hparse]
  rfl

/-! ### What is written -/

/-- `bytes` are the frames of the messages, one after the other. -/
inductive Framed (format : FrameFormat Message) : List Message → Bytes → Prop
  | nil : Framed format [] []
  | cons {message : Message} {messages : List Message} {payload bytes : Bytes}
    (hpayload : format.serialize message = some payload) (hlength : payload.length ≤ maxFrameLength)
    (h : Framed format messages bytes) : Framed format (message :: messages) (format.header payload ++ payload ++ bytes)

theorem trace_writeMessage {message : Message} (h : Trace (format.writeMessage message) taken given (.done true)) :
    ∃ payload, format.serialize message = some payload ∧ payload.length ≤ maxFrameLength ∧
      given = format.header payload ++ payload := by
  rw [writeMessage] at h
  cases hserialize : format.serialize message with
  | none =>
    rw [hserialize] at h
    cases h.done_inv.2.2
  | some payload =>
    simp only [hserialize] at h
    by_cases hmax : payload.length > maxFrameLength
    · rw [if_pos hmax] at h
      cases h.done_inv.2.2
    rw [if_neg hmax] at h
    refine ⟨payload, rfl, Nat.le_of_not_lt hmax, ?_⟩
    rcases h.bind_inv with ⟨_, _, _, hrunning⟩ | ⟨sent, taken₁, given₁, taken₂, given₂, rfl, rfl, hheader, hpayload⟩
    · exact absurd rfl (hrunning _)
    cases sent with
    | false => cases hpayload.done_inv.2.2
    | true =>
      rw [(Connection.trace_sendAll hheader).2.2.mp rfl, (Connection.trace_sendAll hpayload).2.2.mp rfl]

theorem trace_writeMessages {messages : List Message}
    (h : Trace (format.writeMessages messages) taken given (.done true)) : Framed format messages given := by
  induction messages generalizing taken given with
  | nil =>
    obtain ⟨-, rfl, -⟩ := h.done_inv
    exact .nil
  | cons message messages ih =>
    rcases h.bind_inv with ⟨_, _, _, hrunning⟩ | ⟨written, taken₁, given₁, taken₂, given₂, rfl, rfl, hmessage, hafter⟩
    · exact absurd rfl (hrunning _)
    cases written with
    | false => cases hafter.done_inv.2.2
    | true =>
      obtain ⟨payload, hpayload, hlength, rfl⟩ := trace_writeMessage hmessage
      exact .cons hpayload hlength (ih hafter)

/-! ### Reading back -/

/-- At the end of the stream no message is read. -/
theorem eval_readMessage_nil (format : FrameFormat Message) (calls : Calls) (call : Nat) :
    (format.readMessage.eval calls call []).result = none ∧ (format.readMessage.eval calls call []).rest = [] := by
  obtain ⟨taken, hinput, htrace⟩ := trace_eval calls format.readMessage call []
  obtain ⟨rfl, hrest⟩ := List.append_eq_nil_iff.mp hinput.symm
  refine ⟨Option.eq_none_iff_forall_ne_some.mpr fun message hsome => ?_, hrest⟩
  rw [hsome] at htrace
  obtain ⟨payload, -, hframe, -⟩ := trace_readMessage htrace
  cases hframe

/-- Frames are read back in order, and nothing else is. -/
theorem eval_readLoop (hformat : format.ParsesBack) (sizes : Nat → Nat) {messages : List Message} {bytes : Bytes}
    (hframed : Framed format messages bytes) {rounds : Nat} (hrounds : messages.length ≤ rounds) (call : Nat) :
    ((format.readLoop rounds).eval (fun i => some (sizes i)) call bytes).result = messages ∧
      ((format.readLoop rounds).eval (fun i => some (sizes i)) call bytes).rest = [] := by
  induction hframed generalizing rounds call with
  | nil =>
    cases rounds with
    | zero => exact ⟨rfl, rfl⟩
    | succ rounds =>
      obtain ⟨hresult, hrest⟩ := eval_readMessage_nil format (fun i => some (sizes i)) call
      rw [readLoop, eval_bind, hresult, hrest]
      exact ⟨rfl, rfl⟩
  | @cons message messages payload bytes hpayload hlength _ ih =>
    cases rounds with
    | zero => cases hrounds
    | succ rounds =>
      obtain ⟨call', hread⟩ := eval_readMessage sizes bytes call hlength (hformat _ _ hpayload)
      obtain ⟨hresult, hrest⟩ := ih (Nat.le_of_succ_le_succ hrounds) call'
      rw [readLoop, eval_bind, hread]
      simp only [eval_bind]
      rw [hresult, hrest]
      exact ⟨rfl, rfl⟩

end FrameFormat

/-- What has been written without a failure is read back, in order and to the last byte, whatever the pieces; and on any stream a message is read only from a frame, of which nothing is left and after which nothing is missing. -/
theorem protobuf_frames_read_back (serializeToString : Proto.RSPMessage → Option Bytes)
    (parseFromArray : Bytes → Option Proto.RSPMessage)
    (hparses : (protobufFormat serializeToString parseFromArray).ParsesBack) :
    let format := protobufFormat serializeToString parseFromArray
    (∀ (messages : List Proto.RSPMessage) (sending : Calls) (sizes : Nat → Nat) (rounds : Nat),
      ((format.writeMessages messages).eval sending 0 []).result = true → messages.length ≤ rounds →
        let stream := ((format.writeMessages messages).eval sending 0 []).sent
        let received := (format.readLoop rounds).eval (fun i => some (sizes i)) 0 stream
        received.result = messages ∧ received.rest = []) ∧
    ∀ (receiving : Calls) (stream : Bytes) (message : Proto.RSPMessage),
      (format.readMessage.eval receiving 0 stream).result = some message →
        ∃ payload, payload.length ≤ maxFrameLength ∧ parseFromArray payload = some message ∧
          stream = be32 0x52535050 ++ be32 (.ofNat payload.length) ++ payload ++
            (format.readMessage.eval receiving 0 stream).rest := by
  intro format
  constructor
  · intro messages sending sizes rounds hwritten hrounds
    obtain ⟨_, _, htrace⟩ := trace_eval sending (format.writeMessages messages) 0 []
    rw [hwritten] at htrace
    exact FrameFormat.eval_readLoop hparses sizes (FrameFormat.trace_writeMessages htrace) hrounds 0
  · intro receiving stream message hread
    obtain ⟨taken, hstream, htrace⟩ := trace_eval receiving format.readMessage 0 stream
    rw [hread] at htrace
    obtain ⟨payload, hlength, rfl, hparse⟩ := FrameFormat.trace_readMessage htrace
    exact ⟨payload, hlength, hparse, hstream⟩

/-- A payload format for messages with nothing but a nonce: the nonce itself. -/
def nonceToString : Proto.RSPMessage → Option Bytes
  | ⟨none, none, none, .notSet, none, some nonce, none, [], [], []⟩ => some nonce.value
  | _ => none

def nonceFromArray (payload : Bytes) : Option Proto.RSPMessage := some { nonce := some ⟨payload⟩ }

theorem parsesBack_nonce : (protobufFormat nonceToString nonceFromArray).ParsesBack := by
  intro message payload hpayload
  simp only [protobufFormat, nonceToString] at hpayload
  split at hpayload
  · obtain rfl := Option.some.inj hpayload
    rfl
  · cases hpayload

def sampleMessages : List Proto.RSPMessage := [{ nonce := some ⟨[1, 2, 3]⟩ }, { nonce := some ⟨[]⟩ }]

/-- Sent two bytes at a time and received three at a time. -/
theorem protobuf_frames_read_back_sample :
    let format := protobufFormat nonceToString nonceFromArray
    let stream := ((format.writeMessages sampleMessages).eval (fun _ => some 1) 0 []).sent
    stream = [0x52, 0x53, 0x50, 0x50, 0, 0, 0, 3, 1, 2, 3, 0x52, 0x53, 0x50, 0x50, 0, 0, 0, 0] ∧
      ((format.readLoop 5).eval (fun _ => some 2) 0 stream).result = sampleMessages ∧
      ∃ payload, stream = be32 0x52535050 ++ be32 (.ofNat payload.length) ++ payload ++
        (format.readMessage.eval (fun _ => some 2) 0 stream).rest := by
  intro format stream
  have hback := protobuf_frames_read_back nonceToString nonceFromArray parsesBack_nonce
  have hwritten : ((format.writeMessages sampleMessages).eval (fun _ => some 1) 0 []).result = true := by decide +kernel
  have hread : (format.readMessage.eval (fun _ => some 2) 0 stream).result.isSome = true := by decide +kernel
  obtain ⟨message, hmessage⟩ := Option.isSome_iff_exists.mp hread
  obtain ⟨payload, -, -, hstream⟩ := hback.2 (fun _ => some 2) stream message hmessage
  exact ⟨by decide +kernel, (hback.1 sampleMessages (fun _ => some 1) (fun _ => 2) 5 hwritten (by decide)).1, payload,
    hstream⟩

end Rsp

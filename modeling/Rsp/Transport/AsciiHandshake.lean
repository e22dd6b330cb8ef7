import Rsp.Transport.Connection

/-!
# The ASCII handshake

`mq_ascii_handshake.cpp`: the server advertises its encodings, the client names one, and the server accepts or refuses it, each in a message that ends with an empty line. What both sides write next on the same connection is already in the selected encoding, so a side must not read past the end of a message.

The theorem at the end is about every run of the two handlers over two reliable channels. It rests on one property of messages, `FirstTerminated`: a message ends at its first empty line, and so two messages at the start of the same bytes are the same message.
-/

namespace Rsp

namespace AsciiHandshake

open Talk

def messageTerminator : Bytes := ascii "\r\n\r\n"

def maxHandshakeBytes : Nat := 4096

def asciiHandshakeEncoding : Bytes := ascii "protobuf"

def jsonHandshakeEncoding : Bytes := ascii "json"

/-- The size of a buffer is a `uint32_t`. -/
def stringToBuffer (value : Bytes) : Bytes := value.take (value.length % 2 ^ 32)

def sendAll (message : Bytes) : Talk Bool := Connection.sendAll (stringToBuffer message)

/-- Reads byte by byte up to the first terminator. -/
def receiveMessage : Talk (Option Bytes) := loop maxHandshakeBytes []
where
  loop : Nat → Bytes → Talk (Option Bytes)
    | 0, _ => .done none
    | rounds + 1, message => do
      match ← Connection.readExact 1 with
      | none => return none
      | some byte =>
        let message := message ++ byte
        if messageTerminator.isSuffixOf message then return some message
        loop rounds message

def isBlank (b : UInt8) : Bool := b = 0x20 || b = 0x09

def trim (value : Bytes) : Bytes := ((value.dropWhile isBlank).reverse.dropWhile isBlank).reverse

/-- `std::string::find` from the start of the text. -/
def find (needle : Bytes) : Bytes → Option Nat
  | [] => if needle.isEmpty then some 0 else none
  | b :: text => if needle.isPrefixOf (b :: text) then some 0 else (find needle text).map (· + 1)

def lineBreak : Bytes := ascii "\r\n"

/-- The value of the first line that starts with `key`. A round drops a line, and so there are fewer rounds than bytes. -/
def headerValue (message key : Bytes) : Bytes := loop message.length message
where
  loop : Nat → Bytes → Bytes
    | 0, _ => []
    | rounds + 1, lines =>
      match find lineBreak lines with
      | none => []
      | some lineEnd =>
        if lineEnd = 0 then []
        else if key.isPrefixOf (lines.take lineEnd) then trim ((lines.take lineEnd).drop key.length)
        else loop rounds (lines.drop (lineEnd + 2))

def serverAdvertisement : Bytes := ascii "RSP version 0.1\r\nencodings:protobuf,json\r\nasymmetric: P256\r\n\r\n"

def clientSelection (encoding : Bytes) : Bytes := ascii "encoding:" ++ encoding ++ ascii "\r\n\r\n"

def successResponse (encoding : Bytes) : Bytes := ascii "1success: encoding:" ++ encoding ++ ascii "\r\n\r\n"

def errorResponse (message : Bytes) : Bytes := ascii "0error: " ++ message ++ ascii "\r\n\r\n"

def isSupported (encoding : Bytes) : Bool := encoding = asciiHandshakeEncoding || encoding = jsonHandshakeEncoding

def performServerHandshake : Talk (Option Bytes) := do
  if ← sendAll serverAdvertisement then
    match ← receiveMessage with
    | none => return none
    | some clientMessage =>
      let selectedEncoding := headerValue clientMessage (ascii "encoding:")
      if isSupported selectedEncoding then
        if ← sendAll (successResponse selectedEncoding) then return some selectedEncoding
        return none
      else
        let _ ← sendAll (errorResponse (ascii "unsupported encoding"))
        return none
  else return none

/-- The end of `performClientHandshake`: the encoding in the server's answer, up to the end of its line. A line end inside of the prefix would wrap the length around to one that reaches the end of the text. -/
def acceptedEncoding (serverResult : Bytes) : Option Bytes :=
  let successPrefix := ascii "1success: encoding:"
  if serverResult.head? ≠ some 0x31 then none
  else if ¬ successPrefix.isPrefixOf serverResult then none
  else
    let rest := serverResult.drop successPrefix.length
    match find lineBreak serverResult with
    | none => some rest
    | some lineEnd => some (if lineEnd < successPrefix.length then rest else rest.take (lineEnd - successPrefix.length))

def performClientHandshake (requestedEncoding : Bytes) : Talk (Option Bytes) := do
  match ← receiveMessage with
  | none => return none
  | some _ =>
    if ← sendAll (clientSelection requestedEncoding) then
      match ← receiveMessage with
      | none => return none
      | some serverResult => return acceptedEncoding serverResult
    else return none

/-- Whether `createEncodingForConnection` finds a class for the negotiated encoding. -/
def createEncodingForConnection (negotiatedEncoding : Bytes) : Bool := isSupported negotiatedEncoding

/-- `MessageQueueAsciiHandshakeServer::handleMessage` on a new connection: the negotiated encoding if it reaches the success callback. -/
def serverHandleMessage : Talk (Option Bytes) := do
  match ← performServerHandshake with
  | none => return none
  | some selectedEncoding =>
    return if createEncodingForConnection selectedEncoding then some selectedEncoding else none

/-- `MessageQueueAsciiHandshakeClient::handleMessage` on a new connection. -/
def clientHandleMessage (requestedEncoding : Bytes) : Talk (Option Bytes) := do
  match ← performClientHandshake requestedEncoding with
  | none => return none
  | some selectedEncoding =>
    return if selectedEncoding ≠ requestedEncoding then none
      else if createEncodingForConnection selectedEncoding then some selectedEncoding else none

/-- The client and the server at the ends of one connection; a side whose handshake has succeeded goes on to write messages. -/
def handshakeMachine (requestedEncoding : Bytes) : Machine (Duplex (Option Bytes) (Option Bytes)) Duplex.Step :=
  Duplex.machine (clientHandleMessage requestedEncoding) serverHandleMessage Option.isSome Option.isSome

/-! ### Messages end at their first terminator -/

/-- The message ends with the terminator, and no shorter part of it does. -/
structure FirstTerminated (message : Bytes) : Prop where
  ends : messageTerminator <:+ message
  first : ∀ k < message.length, ¬ messageTerminator <:+ message.take k

theorem FirstTerminated.ne_nil {message : Bytes} (h : FirstTerminated message) : message ≠ [] := by
  rintro rfl
  exact absurd h.ends (by decide)

/-- What comes before the end of a message holds no message. -/
theorem FirstTerminated.not_prefix {message other : Bytes} (h : FirstTerminated message) (hother : FirstTerminated other)
    (hlt : other.length < message.length) : ¬ other <+: message := by
  intro hprefix
  refine h.first other.length hlt ?_
  rw [← List.prefix_iff_eq_take.mp hprefix]
  exact hother.ends

theorem FirstTerminated.eq_of_append {message other rest rest' : Bytes} (h : FirstTerminated message)
    (hother : FirstTerminated other) (heq : message ++ rest = other ++ rest') : message = other ∧ rest = rest' := by
  have hlength : message.length = other.length := by
    by_contra hne
    rcases Nat.lt_or_gt_of_ne hne with hlt | hlt
    · exact hother.not_prefix h hlt (List.prefix_of_prefix_length_le ⟨rest, heq⟩ ⟨rest', rfl⟩ hlt.le)
    · exact h.not_prefix hother hlt (List.prefix_of_prefix_length_le ⟨rest', rfl⟩ ⟨rest, heq⟩ hlt.le)
  exact List.append_inj heq hlength

instance (message : Bytes) : Decidable (FirstTerminated message) :=
  decidable_of_iff (messageTerminator <:+ message ∧ ∀ k < message.length, ¬ messageTerminator <:+ message.take k)
    ⟨fun h => ⟨h.1, h.2⟩, fun h => ⟨h.ends, h.first⟩⟩

theorem firstTerminated_serverAdvertisement : FirstTerminated serverAdvertisement := by decide +kernel

theorem isSupported_iff {encoding : Bytes} :
    isSupported encoding = true ↔ encoding = asciiHandshakeEncoding ∨ encoding = jsonHandshakeEncoding := by
  simp [isSupported]

theorem firstTerminated_successResponse {encoding : Bytes} (h : isSupported encoding = true) :
    FirstTerminated (successResponse encoding) := by
  rcases isSupported_iff.mp h with rfl | rfl <;> decide +kernel

theorem firstTerminated_clientSelection {encoding : Bytes} (h : isSupported encoding = true) :
    FirstTerminated (clientSelection encoding) := by
  rcases isSupported_iff.mp h with rfl | rfl <;> decide +kernel

theorem acceptedEncoding_successResponse {encoding : Bytes} (h : isSupported encoding = true) :
    acceptedEncoding (successResponse encoding) = some encoding := by
  rcases isSupported_iff.mp h with rfl | rfl <;> decide +kernel

/-! ### What each side has read and written -/

variable {taken given : Bytes} {q : Talk (Option Bytes)}

theorem trace_receiveMessage_loop {rounds : Nat} {message : Bytes}
    (h : Trace (receiveMessage.loop rounds message) taken given q) :
    given = [] ∧ ∀ received, q = .done (some received) →
      received = message ++ taken ∧ messageTerminator <:+ received ∧
        ∀ k < taken.length, 0 < k → ¬ messageTerminator <:+ message ++ taken.take k := by
  induction rounds generalizing message taken given with
  | zero =>
    obtain ⟨rfl, rfl, rfl⟩ := h.done_inv
    exact ⟨rfl, by simp⟩
  | succ rounds ih =>
    rcases h.bind_inv with ⟨p, hread, _, hrunning⟩ | ⟨byte, taken₁, given₁, taken₂, given₂, rfl, rfl, hread, hnext⟩
    · exact ⟨(Connection.trace_readExact hread).1, fun received hq => absurd hq (hrunning _)⟩
    · obtain ⟨rfl, hbyte⟩ := Connection.trace_readExact hread
      cases byte with
      | none =>
        obtain ⟨rfl, rfl, rfl⟩ := hnext.done_inv
        exact ⟨rfl, by simp⟩
      | some byte =>
        obtain ⟨hlength, rfl⟩ := hbyte byte rfl
        simp only [List.isSuffixOf_iff_suffix] at hnext
        by_cases hends : messageTerminator <:+ message ++ byte
        · rw [if_pos hends] at hnext
          obtain ⟨rfl, rfl, rfl⟩ := hnext.done_inv
          refine ⟨rfl, fun received hq => ?_⟩
          cases hq
          rw [List.append_nil]
          exact ⟨rfl, hends, fun k hk hpos => by omega⟩
        · rw [if_neg hends] at hnext
          obtain ⟨hgiven, hdone⟩ := ih hnext
          refine ⟨hgiven, fun received hq => ?_⟩
          obtain ⟨rfl, hterminated, hfirst⟩ := hdone received hq
          refine ⟨List.append_assoc .., hterminated, fun k hk hpos => ?_⟩
          rw [List.length_append] at hk
          by_cases hone : k = 1
          · rw [hone, ← hlength, List.take_left]
            exact hends
          · have hsplit := hfirst (k - 1) (by omega) (by omega)
            rwa [List.append_assoc, ← hlength, ← List.take_length_add_append, hlength, Nat.add_sub_cancel' hpos] at hsplit

/-- `receiveMessage` sends nothing, and if it succeeds it has read one message and no byte more. -/
theorem trace_receiveMessage (h : Trace receiveMessage taken given q) :
    given = [] ∧ ∀ message, q = .done (some message) → message = taken ∧ FirstTerminated message := by
  obtain ⟨hgiven, hdone⟩ := trace_receiveMessage_loop h
  refine ⟨hgiven, fun message hq => ?_⟩
  obtain ⟨rfl, hends, hfirst⟩ := hdone message hq
  refine ⟨rfl, hends, fun k hk hsuffix => ?_⟩
  rcases Nat.eq_zero_or_pos k with rfl | hpos
  · rw [List.take_zero] at hsuffix
    exact absurd hsuffix (by decide)
  · exact hfirst k hk hpos hsuffix

/-- How far the server has come. -/
inductive ServerTrace : (taken given : Bytes) → Talk (Option Bytes) → Prop
  /-- Nothing is written but the advertisement, and no encoding is accepted. -/
  | advertising {taken given : Bytes} {q : Talk (Option Bytes)} (hgiven : given <+: serverAdvertisement)
    (hq : ∀ encoding, q ≠ .done (some encoding)) : ServerTrace taken given q
  /-- The request was refused, or the answer is not yet, or not all, written. -/
  | answering {taken given answer : Bytes} {q : Talk (Option Bytes)}
    (hanswer : answer <+: errorResponse (ascii "unsupported encoding") ∨ ∃ encoding,
      isSupported encoding = true ∧ answer <+: successResponse encoding ∧ answer ≠ successResponse encoding)
    (hgiven : given = serverAdvertisement ++ answer) (hq : ∀ encoding, q ≠ .done (some encoding)) :
    ServerTrace taken given q
  | accepted {clientMessage encoding : Bytes} (hmessage : FirstTerminated clientMessage)
    (hsupported : isSupported encoding = true) :
    ServerTrace clientMessage (serverAdvertisement ++ successResponse encoding) (.done (some encoding))

theorem stringToBuffer_of_lt {value : Bytes} (h : value.length < 2 ^ 32) : stringToBuffer value = value := by
  rw [stringToBuffer, Nat.mod_eq_of_lt h, List.take_length]

theorem length_successResponse_lt {encoding : Bytes} (h : isSupported encoding = true) :
    (successResponse encoding).length < 2 ^ 32 := by
  rcases isSupported_iff.mp h with rfl | rfl <;> decide

theorem length_clientSelection_lt {encoding : Bytes} (h : isSupported encoding = true) :
    (clientSelection encoding).length < 2 ^ 32 := by
  rcases isSupported_iff.mp h with rfl | rfl <;> decide

/-- The handshake's `sendAll` of a text of ordinary size. -/
theorem trace_sendAll {message : Bytes} {q : Talk Bool} (hlt : message.length < 2 ^ 32)
    (h : Trace (sendAll message) taken given q) : taken = [] ∧ given <+: message ∧ (q = .done true ↔ given = message) := by
  rw [sendAll, stringToBuffer_of_lt hlt] at h
  exact Connection.trace_sendAll h

theorem trace_performServerHandshake (h : Trace performServerHandshake taken given q) : ServerTrace taken given q := by
  rcases h.bind_inv with ⟨p, hsend, _, hrunning⟩ | ⟨sent, taken₁, given₁, taken₂, given₂, rfl, rfl, hsend, hafter⟩
  · exact .advertising (trace_sendAll (by decide) hsend).2.1 fun _ => hrunning _
  obtain ⟨rfl, hprefix, hall⟩ := trace_sendAll (by decide) hsend
  cases sent with
  | false =>
    obtain ⟨rfl, rfl, rfl⟩ := hafter.done_inv
    simp only [List.append_nil]
    exact .advertising hprefix (by simp)
  | true =>
    obtain rfl := hall.mp rfl
    rcases hafter.bind_inv with ⟨p, hreceive, _, hrunning⟩ |
      ⟨received, taken₁, given₁, taken₂, given₂, rfl, rfl, hreceive, hanswer⟩
    · rw [(trace_receiveMessage hreceive).1, List.append_nil]
      exact .advertising (List.prefix_refl _) fun _ => hrunning _
    obtain ⟨rfl, hmessage⟩ := trace_receiveMessage hreceive
    cases received with
    | none =>
      obtain ⟨rfl, rfl, rfl⟩ := hanswer.done_inv
      exact .advertising (List.prefix_refl _) (by simp)
    | some clientMessage =>
      obtain ⟨rfl, hterminated⟩ := hmessage _ rfl
      simp only at hanswer
      cases hsupported : isSupported (headerValue clientMessage (ascii "encoding:")) with
      | false =>
        simp only [hsupported, Bool.false_eq_true, if_false] at hanswer
        rcases hanswer.bind_inv with ⟨p, hsend, _, hrunning⟩ |
          ⟨sent, taken₁, given₁, taken₂, given₂, rfl, rfl, hsend, hrefused⟩
        · exact .answering (.inl (trace_sendAll (by decide) hsend).2.1) rfl fun _ => hrunning _
        · obtain ⟨rfl, rfl, rfl⟩ := hrefused.done_inv
          simp only [List.append_nil, List.nil_append]
          exact .answering (.inl (trace_sendAll (by decide) hsend).2.1) rfl (by simp)
      | true =>
        simp only [hsupported, if_true] at hanswer
        have hlt := length_successResponse_lt hsupported
        rcases hanswer.bind_inv with ⟨p, hsend, hsending, hrunning⟩ |
          ⟨sent, taken₁, given₁, taken₂, given₂, rfl, rfl, hsend, haccepted⟩
        · obtain ⟨-, hpart, hdone⟩ := trace_sendAll hlt hsend
          exact .answering (.inr ⟨_, hsupported, hpart, fun heq => hsending _ (hdone.mpr heq)⟩) rfl fun _ => hrunning _
        · obtain ⟨rfl, hpart, hdone⟩ := trace_sendAll hlt hsend
          cases sent with
          | false =>
            obtain ⟨rfl, rfl, rfl⟩ := haccepted.done_inv
            simp only [List.append_nil, List.nil_append]
            exact .answering (.inr ⟨_, hsupported, hpart, fun heq => by simpa using hdone.mpr heq⟩) rfl (by simp)
          | true =>
            obtain ⟨rfl, rfl, rfl⟩ := haccepted.done_inv
            obtain rfl := hdone.mp rfl
            simp only [List.append_nil, List.nil_append]
            exact .accepted hterminated hsupported

theorem trace_serverHandleMessage (h : Trace serverHandleMessage taken given q) : ServerTrace taken given q := by
  rcases h.bind_inv with ⟨p, hperform, hperforming, hrunning⟩ |
    ⟨selected, taken₁, given₁, taken₂, given₂, rfl, rfl, hperform, hafter⟩
  · cases trace_performServerHandshake hperform with
    | advertising hgiven _ => exact .advertising hgiven fun _ => hrunning _
    | answering hanswer hgiven _ => exact .answering hanswer hgiven fun _ => hrunning _
    | accepted _ _ => exact absurd rfl (hperforming _)
  have hserver := trace_performServerHandshake hperform
  cases selected with
  | none =>
    obtain ⟨rfl, rfl, rfl⟩ := hafter.done_inv
    rwa [List.append_nil, List.append_nil]
  | some encoding =>
    obtain ⟨rfl, rfl, rfl⟩ := hafter.done_inv
    rw [List.append_nil, List.append_nil]
    cases hserver with
    | advertising _ hq => exact absurd rfl (hq _)
    | answering _ _ hq => exact absurd rfl (hq _)
    | accepted hmessage hsupported =>
      rw [createEncodingForConnection, if_pos hsupported]
      exact .accepted hmessage hsupported

/-- A client that accepts has read two messages and written its selection. -/
theorem trace_performClientHandshake {requestedEncoding encoding : Bytes}
    (h : Trace (performClientHandshake requestedEncoding) taken given (.done (some encoding))) :
    ∃ serverMessage serverResult, taken = serverMessage ++ serverResult ∧ FirstTerminated serverMessage ∧
      FirstTerminated serverResult ∧ given = stringToBuffer (clientSelection requestedEncoding) ∧
        acceptedEncoding serverResult = some encoding := by
  rcases h.bind_inv with ⟨_, _, _, hrunning⟩ | ⟨received, taken₁, given₁, taken₂, given₂, rfl, rfl, hreceive, hselect⟩
  · exact absurd rfl (hrunning _)
  obtain ⟨rfl, hmessage⟩ := trace_receiveMessage hreceive
  cases received with
  | none => cases hselect.done_inv.2.2
  | some serverMessage =>
    obtain ⟨rfl, hserverMessage⟩ := hmessage _ rfl
    rcases hselect.bind_inv with ⟨_, _, _, hrunning⟩ |
      ⟨sent, taken₁, given₁, taken₂, given₂, rfl, rfl, hsend, hresult⟩
    · exact absurd rfl (hrunning _)
    obtain ⟨rfl, _, hall⟩ := Connection.trace_sendAll hsend
    cases sent with
    | false => cases hresult.done_inv.2.2
    | true =>
      obtain rfl := hall.mp rfl
      rcases hresult.bind_inv with ⟨_, _, _, hrunning⟩ |
        ⟨received, taken₁, given₁, taken₂, given₂, rfl, rfl, hreceive, haccept⟩
      · exact absurd rfl (hrunning _)
      obtain ⟨rfl, hmessage⟩ := trace_receiveMessage hreceive
      cases received with
      | none => cases haccept.done_inv.2.2
      | some serverResult =>
        obtain ⟨rfl, hserverResult⟩ := hmessage _ rfl
        obtain ⟨rfl, rfl, hdone⟩ := haccept.done_inv
        refine ⟨serverMessage, serverResult, by simp, hserverMessage, hserverResult, by simp, ?_⟩
        exact (Talk.done.inj hdone).symm

theorem trace_clientHandleMessage {requestedEncoding encoding : Bytes}
    (h : Trace (clientHandleMessage requestedEncoding) taken given (.done (some encoding))) :
    encoding = requestedEncoding ∧ isSupported encoding = true ∧ given = clientSelection encoding ∧
      ∃ serverMessage serverResult, taken = serverMessage ++ serverResult ∧ FirstTerminated serverMessage ∧
        FirstTerminated serverResult ∧ acceptedEncoding serverResult = some encoding := by
  rcases h.bind_inv with ⟨_, _, _, hrunning⟩ | ⟨selected, taken₁, given₁, taken₂, given₂, rfl, rfl, hperform, hafter⟩
  · exact absurd rfl (hrunning _)
  cases selected with
  | none => cases hafter.done_inv.2.2
  | some selected =>
    obtain ⟨rfl, rfl, hdone⟩ := hafter.done_inv
    have hresult : some encoding = if selected ≠ requestedEncoding then none
        else if createEncodingForConnection selected then some selected else none := Talk.done.inj hdone
    split_ifs at hresult with hne hsupported
    obtain rfl := Option.some.inj hresult
    obtain rfl := not_not.mp hne
    obtain ⟨serverMessage, serverResult, rfl, hserverMessage, hserverResult, rfl, haccepted⟩ :=
      trace_performClientHandshake hperform
    rw [List.append_nil, List.append_nil, stringToBuffer_of_lt (length_clientSelection_lt hsupported)]
    exact ⟨rfl, hsupported, rfl, serverMessage, serverResult, rfl, hserverMessage, hserverResult, haccepted⟩

/-! ### Agreement -/

theorem head?_of_acceptedEncoding {serverResult encoding : Bytes} (h : acceptedEncoding serverResult = some encoding) :
    serverResult.head? = some 0x31 := by
  by_contra hne
  simp only [acceptedEncoding, if_pos hne] at h
  cases h

/-- What an accepting client has read shows that the server has accepted: neither the advertisement nor a part of an answer holds the two messages. -/
theorem accepted_of_read {serverMessage serverResult encoding later unread : Bytes}
    (hserver : ServerTrace taken given q) (hlater : later = [] ∨ ∃ encoding, q = .done (some encoding))
    (hread : given ++ later = serverMessage ++ serverResult ++ unread) (hserverMessage : FirstTerminated serverMessage)
    (hserverResult : FirstTerminated serverResult) (haccepted : acceptedEncoding serverResult = some encoding) :
    FirstTerminated taken ∧ q = .done (some encoding) ∧ unread = later := by
  rw [List.append_assoc] at hread
  cases hserver with
  | advertising hgiven hq =>
    obtain rfl := hlater.resolve_right fun ⟨encoding, hdone⟩ => hq encoding hdone
    obtain ⟨rest, hrest⟩ := hgiven
    rw [List.append_nil] at hread
    rw [hread, List.append_assoc, List.append_assoc] at hrest
    have hnil := (hserverMessage.eq_of_append firstTerminated_serverAdvertisement
      (hrest.trans (List.append_nil _).symm)).2
    exact absurd (List.append_eq_nil_iff.mp hnil).1 hserverResult.ne_nil
  | answering hanswer hgiven hq =>
    obtain rfl := hlater.resolve_right fun ⟨encoding, hdone⟩ => hq encoding hdone
    rw [hgiven, List.append_nil] at hread
    obtain ⟨-, hrest⟩ := firstTerminated_serverAdvertisement.eq_of_append hserverMessage hread
    have hresult : serverResult <+: _ := ⟨unread, hrest.symm⟩
    rcases hanswer with herror | ⟨encoding', hsupported, hpart, hne⟩
    · -- a refusal starts with another character
      obtain ⟨rest, hrefusal⟩ := hresult.trans herror
      have hhead := congrArg List.head? hrefusal
      rw [List.head?_append_of_ne_nil _ hserverResult.ne_nil, head?_of_acceptedEncoding haccepted] at hhead
      exact absurd hhead (by decide)
    · obtain ⟨rest, hresponse⟩ := hpart
      rw [hrest, List.append_assoc] at hresponse
      obtain ⟨rfl, hnil⟩ := hserverResult.eq_of_append (firstTerminated_successResponse hsupported)
        (hresponse.trans (List.append_nil _).symm)
      rw [(List.append_eq_nil_iff.mp hnil).1, List.append_nil] at hrest
      exact absurd hrest hne
  | accepted hmessage hsupported =>
    rw [List.append_assoc] at hread
    obtain ⟨-, hrest⟩ := firstTerminated_serverAdvertisement.eq_of_append hserverMessage hread
    obtain ⟨rfl, hunread⟩ := (firstTerminated_successResponse hsupported).eq_of_append hserverResult hrest
    rw [acceptedEncoding_successResponse hsupported] at haccepted
    exact ⟨hmessage, by rw [haccepted], hunread.symm⟩

end AsciiHandshake

open AsciiHandshake in
/-- Whatever was requested and however the bytes are cut, a client that accepts leaves both sides with the requested encoding, and the bytes on their way in each direction are those written after the handshake. -/
theorem handshake_agrees (requestedEncoding encoding : Bytes) (sys : Duplex (Option Bytes) (Option Bytes))
    (hreach : (handshakeMachine requestedEncoding).Reaches sys) (haccepts : sys.left = .done (some encoding)) :
    encoding = requestedEncoding ∧ sys.right = .done (some encoding) ∧
      sys.toLeft = sys.laterRight ∧ sys.toRight = sys.laterLeft := by
  obtain ⟨⟨takenLeft, givenLeft, takenRight, givenRight, hclient, hserver, htoLeft, htoRight⟩, -, hlater⟩ :=
    Duplex.connected_of_reaches hreach
  rw [haccepts] at hclient
  obtain ⟨rfl, hsupported, rfl, serverMessage, serverResult, rfl, hserverMessage, hserverResult, haccepted⟩ :=
    trace_clientHandleMessage hclient
  have hlater : sys.laterRight = [] ∨ ∃ encoding, sys.right = .done (some encoding) := by
    refine hlater.imp id fun ⟨result, hright, hsome⟩ => ?_
    obtain ⟨encoding, rfl⟩ := Option.isSome_iff_exists.mp hsome
    exact ⟨encoding, hright⟩
  obtain ⟨hmessage, hright, hunread⟩ := accepted_of_read (trace_serverHandleMessage hserver) hlater htoLeft
    hserverMessage hserverResult haccepted
  have hrest := ((firstTerminated_clientSelection hsupported).eq_of_append hmessage htoRight).2
  exact ⟨rfl, hright, hunread, hrest.symm⟩

namespace AsciiHandshake

/-- A run in which the advertisement goes out in two pieces and both sides write two bytes after the handshake. -/
def sampleSteps : List Duplex.Step :=
  ([.right 20, .right 42] : List Duplex.Step) ++ List.replicate 62 (Duplex.Step.left 1) ++
    ([.left 21] : List Duplex.Step) ++ List.replicate 21 (Duplex.Step.right 1) ++
    ([.right 31, .rightWrites [1, 2]] : List Duplex.Step) ++ List.replicate 31 (Duplex.Step.left 1) ++
    ([.leftWrites [3, 4]] : List Duplex.Step)

def sampleEnd : Option (Duplex (Option Bytes) (Option Bytes)) :=
  (handshakeMachine (ascii "protobuf")).run
    { left := clientHandleMessage (ascii "protobuf"), right := serverHandleMessage } sampleSteps

def acceptedBy : Talk (Option Bytes) → Option Bytes
  | .done encoding => encoding
  | _ => none

theorem eq_done_of_acceptedBy {talk : Talk (Option Bytes)} {encoding : Bytes} (h : acceptedBy talk = some encoding) :
    talk = .done (some encoding) := by
  cases talk with
  | done result => exact congrArg Talk.done h
  | recv limit next => cases h
  | send data next => cases h

end AsciiHandshake

open AsciiHandshake in
theorem handshake_agrees_sample : ∃ sys, sampleEnd = some sys ∧ sys.left = .done (some (ascii "protobuf")) ∧
    sys.toLeft = [1, 2] ∧ sys.right = .done (some (ascii "protobuf")) ∧ sys.laterRight = [1, 2] ∧
      sys.laterLeft = sys.toRight := by
  have hrun : sampleEnd.any (fun sys =>
      acceptedBy sys.left == some (ascii "protobuf") && sys.toLeft == [1, 2]) = true := by
    decide +kernel
  cases hsys : sampleEnd with
  | none =>
    rw [hsys] at hrun
    cases hrun
  | some sys =>
    simp only [hsys, Option.any_some, Bool.and_eq_true, beq_iff_eq] at hrun
    have haccepts := eq_done_of_acceptedBy hrun.1
    obtain ⟨-, hright, htoLeft, htoRight⟩ :=
      handshake_agrees (ascii "protobuf") (ascii "protobuf") sys (.run (.start rfl) hsys) haccepts
    exact ⟨sys, rfl, haccepts, hrun.2, hright, htoLeft.symm.trans hrun.2, htoRight.symm⟩

end Rsp

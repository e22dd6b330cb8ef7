import Rsp.Proto.Ast

/-!
# Stream messages

The stream messages of `messages.proto` and the requests of `bsd_sockets.proto`, with the fields that the handlers read or set.
-/

namespace Rsp.Proto

structure StreamID where
  value : Bytes := []
deriving DecidableEq, Repr, Inhabited

structure StreamStatus where
  number : Int32 := 0
deriving DecidableEq, Repr, Inhabited

namespace StreamStatus

def success : StreamStatus := ⟨0⟩
def connectRefused : StreamStatus := ⟨1⟩
def connectTimeout : StreamStatus := ⟨2⟩
def streamClosed : StreamStatus := ⟨3⟩
def streamData : StreamStatus := ⟨4⟩
def streamError : StreamStatus := ⟨5⟩
def newConnection : StreamStatus := ⟨6⟩
def asyncStream : StreamStatus := ⟨7⟩
def nodeIdMismatch : StreamStatus := ⟨9⟩
def invalidFlags : StreamStatus := ⟨10⟩
def streamInUse : StreamStatus := ⟨11⟩
def timedOut : StreamStatus := ⟨12⟩

end StreamStatus

structure StreamReply where
  streamId : Option StreamID := none
  error : StreamStatus := {}
  message : Option Bytes := none
  newStreamId : Option StreamID := none
  data : Option Bytes := none
  streamErrorCode : Option Int32 := none
deriving DecidableEq, Repr, Inhabited

structure ConnectTCPRequest where
  hostPort : Bytes := []
  streamId : Option StreamID := none
  asyncData : Option Bool := none
  useSocket : Option Bool := none
  shareSocket : Option Bool := none
deriving DecidableEq, Repr, Inhabited

structure ListenTCPRequest where
  hostPort : Bytes := []
  streamId : Option StreamID := none
  asyncAccept : Option Bool := none
  shareListeningSocket : Option Bool := none
  shareChildSockets : Option Bool := none
  childrenUseSocket : Option Bool := none
  childrenAsyncData : Option Bool := none
deriving DecidableEq, Repr, Inhabited

structure AcceptTCP where
  listenStreamId : Option StreamID := none
  newStreamId : Option StreamID := none
  shareChildSocket : Option Bool := none
  childAsyncData : Option Bool := none
deriving DecidableEq, Repr, Inhabited

structure StreamSend where
  streamId : Option StreamID := none
  data : Bytes := []
deriving DecidableEq, Repr, Inhabited

structure StreamRecv where
  streamId : Option StreamID := none
  maxBytes : Option UInt32 := none
deriving DecidableEq, Repr, Inhabited

structure StreamClose where
  streamId : Option StreamID := none
deriving DecidableEq, Repr, Inhabited

end Rsp.Proto

namespace Rsp

open Proto

def toProtoStreamId (id : GUID) : StreamID := ⟨id.toNative⟩

def fromProtoStreamId (id : StreamID) : Option GUID := GUID.ofNative id.value

end Rsp

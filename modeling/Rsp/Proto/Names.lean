import Rsp.Proto.Messages

/-!
# Messages of the name service

The requests and replies of `name.proto`. Each of the two sums stands for the one service message that a message carries.
-/

namespace Rsp.Proto

structure NameStatus where
  number : Int32 := 0
deriving DecidableEq, Repr, Inhabited

namespace NameStatus

def success : NameStatus := ⟨0⟩
def notFound : NameStatus := ⟨1⟩
def duplicate : NameStatus := ⟨2⟩
def error : NameStatus := ⟨3⟩

end NameStatus

structure NameRecord where
  name : Bytes := []
  owner : Option NodeId := none
  type : Option Uuid := none
  value : Option Uuid := none
  expiresAt : Option DateTime := none
deriving DecidableEq, Repr, Inhabited

structure NameCreateRequest where
  record : Option NameRecord := none
deriving DecidableEq, Repr, Inhabited

structure NameReadRequest where
  name : Bytes := []
  owner : Option NodeId := none
  type : Option Uuid := none
deriving DecidableEq, Repr, Inhabited

structure NameUpdateRequest where
  name : Bytes := []
  owner : Option NodeId := none
  type : Option Uuid := none
  newValue : Option Uuid := none
deriving DecidableEq, Repr, Inhabited

structure NameDeleteRequest where
  name : Bytes := []
  owner : Option NodeId := none
  type : Option Uuid := none
deriving DecidableEq, Repr, Inhabited

structure NameQueryRequest where
  namePrefix : Option Bytes := none
  owner : Option NodeId := none
  type : Option Uuid := none
  maxRecords : UInt32 := 0
deriving DecidableEq, Repr, Inhabited

structure NameRefreshRequest where
  name : Bytes := []
  owner : Option NodeId := none
  type : Option Uuid := none
deriving DecidableEq, Repr, Inhabited

/-- `NameCreateReply`, `NameUpdateReply`, `NameDeleteReply` and `NameRefreshReply` have the same fields. -/
structure NameStatusReply where
  status : NameStatus := {}
  message : Option Bytes := none
deriving DecidableEq, Repr, Inhabited

structure NameReadReply where
  status : NameStatus := {}
  records : List NameRecord := []
deriving DecidableEq, Repr, Inhabited

structure NameQueryReply where
  records : List NameRecord := []
deriving DecidableEq, Repr, Inhabited

inductive NameRequest
  | create (request : NameCreateRequest)
  | read (request : NameReadRequest)
  | update (request : NameUpdateRequest)
  | delete (request : NameDeleteRequest)
  | query (request : NameQueryRequest)
  | refresh (request : NameRefreshRequest)
deriving DecidableEq, Repr

inductive NameReply
  | create (reply : NameStatusReply)
  | read (reply : NameReadReply)
  | update (reply : NameStatusReply)
  | delete (reply : NameStatusReply)
  | query (reply : NameQueryReply)
  | refresh (reply : NameStatusReply)
deriving DecidableEq, Repr

end Rsp.Proto

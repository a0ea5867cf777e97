import PropertyGraph.Compiled
import PropertyGraph.RawResult
import PropertyGraph.Remote.RequestId

/-!
# Messages

Client and server exchange JSON texts. A request carries an identifier, and each response to it carries
the same one. All responses but the last have the status `partial`, so every other status ends the
request.
-/

namespace PropertyGraph

namespace Status

/-- The last response, with results. -/
def success : UInt16 := 200

/-- The last response, without results. -/
def noContent : UInt16 := 204

/-- More responses follow. -/
def incomplete : UInt16 := 206

/-- The request cannot be read. -/
def malformedRequest : UInt16 := 498

/-- A failure without a status of its own. -/
def serverError : UInt16 := 500

end Status

/-- The operation of a request that carries a traversal. -/
def traversalOperation : String := "traversal"

structure TraversalRequest where
  requestId : RequestId
  traversal : CompiledTraversal
deriving Repr

namespace TraversalRequest

instance : BEq TraversalRequest :=
  ⟨fun a b => a.requestId == b.requestId && a.traversal == b.traversal⟩

def toJson (r : TraversalRequest) : Json :=
  .obj [("requestId", r.requestId.toJson), ("traversal", r.traversal.toJson)]

end TraversalRequest

structure RequestMessage where
  requestId : RequestId
  op : String
  traversal : CompiledTraversal
deriving Repr

namespace RequestMessage

instance : BEq RequestMessage :=
  ⟨fun a b => a.requestId == b.requestId && a.op == b.op && a.traversal == b.traversal⟩

def ofRequest (r : TraversalRequest) : RequestMessage :=
  ⟨r.requestId, traversalOperation, r.traversal⟩

def toRequest (r : RequestMessage) : TraversalRequest := ⟨r.requestId, r.traversal⟩

def toJson (r : RequestMessage) : Json :=
  .obj [("requestId", r.requestId.toJson), ("op", .str r.op), ("traversal", r.traversal.toJson)]

structure Draft where
  requestId : Option RequestId
  op : Option String
  traversal : Option CompiledTraversal

def readField (m : Medium) (name : String) (d : Document) : Except DecodeError (Draft → Draft) :=
  match name with
  | "requestId" => do
    let id ← RequestId.read d
    return ({ · with requestId := some id })
  | "op" => do
    let op ← Reading.string d
    return ({ · with op := some op })
  | _ => do
    let traversal ← CompiledTraversal.read m d
    return ({ · with traversal := some traversal })

def read (m : Medium) (d : Document) : Except DecodeError RequestMessage := do
  let draft ← Reading.record m "a request"
    [Reading.required "requestId", Reading.required "op", Reading.required "traversal"]
    (⟨none, none, none⟩ : Draft) (readField m) d
  return ⟨← Reading.need "requestId" draft.requestId, ← Reading.need "op" draft.op,
    ← Reading.need "traversal" draft.traversal⟩

instance : WireForm RequestMessage := ⟨toJson, read⟩

end RequestMessage

def TraversalRequest.read (m : Medium) (d : Document) : Except DecodeError TraversalRequest := do
  let draft ← Reading.record m "a request"
    [Reading.required "requestId", Reading.required "traversal"]
    (⟨none, none, none⟩ : RequestMessage.Draft) (RequestMessage.readField m) d
  return ⟨← Reading.need "requestId" draft.requestId, ← Reading.need "traversal" draft.traversal⟩

instance : WireForm TraversalRequest := ⟨TraversalRequest.toJson, TraversalRequest.read⟩

structure ResponseStatus where
  code : UInt16
  message : String
deriving DecidableEq, Repr

namespace ResponseStatus

def toJson (s : ResponseStatus) : Json :=
  .obj [("code", .int s.code.toNat), ("message", .str s.message)]

structure Draft where
  code : Option UInt16
  message : String

def read (m : Medium) (d : Document) : Except DecodeError ResponseStatus := do
  let draft ← Reading.record m "a status" [Reading.required "code", Reading.defaulted "message"]
    (⟨none, ""⟩ : Draft)
    (fun name d =>
      if name = "code" then do
        let code ← Reading.natural 16 d
        return ({ · with code := some (UInt16.ofNat code) })
      else do
        let message ← Reading.string d
        return ({ · with message })) d
  return ⟨← Reading.need "code" draft.code, draft.message⟩

instance : WireForm ResponseStatus := ⟨toJson, read⟩

end ResponseStatus

structure ResponseMessage where
  /-- The identifier of the request; none when the request itself could not be read. -/
  requestId : Option RequestId
  status : ResponseStatus
  result : List RawResult
deriving Repr

namespace ResponseMessage

instance : BEq ResponseMessage :=
  ⟨fun a b => a.requestId == b.requestId && a.status == b.status && a.result == b.result⟩

/-- Results with more to follow. -/
def batch (id : RequestId) (result : List RawResult) : ResponseMessage :=
  ⟨some id, ⟨Status.incomplete, ""⟩, result⟩

/-- The last results. -/
def success (id : RequestId) (result : List RawResult) : ResponseMessage :=
  ⟨some id, ⟨if result.isEmpty then Status.noContent else Status.success, ""⟩, result⟩

def error (id : Option RequestId) (code : UInt16) (message : String) : ResponseMessage :=
  ⟨id, ⟨code, message⟩, []⟩

def isTerminal (r : ResponseMessage) : Bool := r.status.code != Status.incomplete

def isError (r : ResponseMessage) : Bool :=
  !([Status.success, Status.noContent, Status.incomplete].contains r.status.code)

def toJson (r : ResponseMessage) : Json :=
  .obj [("requestId", (r.requestId.map RequestId.toJson).getD .null),
    ("status", r.status.toJson), ("result", .arr (r.result.map RawResult.toJson))]

structure Draft where
  requestId : Option RequestId
  status : Option ResponseStatus
  result : List RawResult

def readField (m : Medium) (name : String) (d : Document) : Except DecodeError (Draft → Draft) :=
  match name with
  | "requestId" => do
    let id ← Reading.optional RequestId.read d
    return ({ · with requestId := id })
  | "status" => do
    let status ← ResponseStatus.read m d
    return ({ · with status := some status })
  | _ => do
    let result ← Reading.list (RawResult.read · m) d
    return ({ · with result })

def read (m : Medium) (d : Document) : Except DecodeError ResponseMessage := do
  let draft ← Reading.record m "a response"
    [Reading.defaulted "requestId", Reading.required "status", Reading.defaulted "result"]
    (⟨none, none, []⟩ : Draft) (readField m) d
  return ⟨draft.requestId, ← Reading.need "status" draft.status, draft.result⟩

instance : WireForm ResponseMessage := ⟨toJson, read⟩

end ResponseMessage

end PropertyGraph

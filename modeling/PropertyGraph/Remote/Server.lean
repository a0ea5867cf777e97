import PropertyGraph.Channel
import PropertyGraph.Remote.Message

/-!
# The server

The server reads a request, submits its traversal and answers with the results in batches. A text that
is no request is rejected, with the identifier of the request as far as one can be made out.
-/

namespace PropertyGraph

namespace Server

def batchSize : Nat := 64

def malformed (id : Option RequestId) (reason : String) : ResponseMessage :=
  .error id Status.malformedRequest reason

/-- The identifier in a value that may not be a request. -/
def requestId? (value : Json) : Option RequestId :=
  ((value.member? "requestId").bind Json.toStr?).bind RequestId.ofText?

/-- The request in a text, or its rejection. -/
def parseRequest (text : String) : Except ResponseMessage TraversalRequest :=
  match Json.ofText? text with
  | none => .error (malformed none DecodeError.malformed.summary)
  | some value =>
    match WireForm.ofJson RequestMessage value with
    | .error e => .error (malformed (requestId? value) e.summary)
    | .ok message =>
      if message.op = traversalOperation then .ok message.toRequest
      else .error (malformed (some message.requestId) s!"Unsupported op '{message.op}'")

/-- The response that ends a failed request. A failure of the engine keeps its status. -/
def failure (id : RequestId) : TraversalError → ResponseMessage
  | .server code reason => .error (some id) code reason
  | e => .error (some id) Status.serverError e.message

/-- The responses to a stream of items, given the batch that is being filled, in reverse. Nothing
follows the first failure. -/
def respondTo (id : RequestId) (ends : Bool) :
    (filling : List RawResult) → List StreamItem → List ResponseMessage
  | filling, [] => if ends then [.success id filling.reverse] else []
  | filling, .error e :: _ =>
    if filling.isEmpty then [failure id e] else [.batch id filling.reverse, failure id e]
  | filling, .ok result :: rest =>
    if filling.length + 1 = batchSize then
      .batch id (result :: filling).reverse :: respondTo id ends [] rest
    else respondTo id ends (result :: filling) rest

def responses (id : RequestId) : Submission → List ResponseMessage
  | .refused e => [failure id e]
  | .stalled => []
  | .accepted items ends => respondTo id ends [] items

def receive (text : String) (channel : Channel) : List ResponseMessage × Channel :=
  match parseRequest text with
  | .error rejection => ([rejection], channel)
  | .ok request =>
    let (submission, channel) := channel.submit request.traversal
    (responses request.requestId submission, channel)

end Server

end PropertyGraph

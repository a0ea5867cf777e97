import PropertyGraph.Channel
import PropertyGraph.Remote.Message
import PropertyGraph.Settings.Connection

/-!
# The client

One connection carries any number of requests. A table of pending requests says which result stream a
response belongs to; a request leaves the table with its last response, when its stream is given up, or
when the connection is lost. Results that are not read yet wait in their stream. Streams are numbered,
since a request identifier may be used again while an earlier stream is still there.

Time is a number of milliseconds. It passes only while someone waits.
-/

namespace PropertyGraph

inductive ConnectionError where
  | connect (url reason : String)
  | closed
  | timeout (span : Span)
deriving DecidableEq, Repr

namespace ConnectionError

def message : ConnectionError → String
  | connect url reason => s!"Failed to connect to {url}: {reason}"
  | closed => "Connection closed"
  | timeout span => s!"No response within {span.text}"

def toTraversalError (e : ConnectionError) : TraversalError := .transport e.message

end ConnectionError

/-- How far a result stream has been read. -/
inductive StreamPhase where
  | open
  | failed
  | ended
deriving DecidableEq, Repr

structure ResultStream where
  requestId : RequestId
  /-- What has arrived and is not read yet. -/
  unread : List StreamItem
  connected : Bool
  /-- The end of the wait for the next item, once the wait has begun. -/
  deadline : Option Nat
  phase : StreamPhase

namespace ResultStream

def deliver (items : List StreamItem) (s : ResultStream) : ResultStream :=
  { s with unread := s.unread ++ items }

def disconnect (s : ResultStream) : ResultStream := { s with connected := false }

end ResultStream

/-- What a poll of a stream brings. -/
inductive StreamPoll where
  | pending
  | ended
  | item (item : StreamItem)

structure Client where
  config : ConnectionConfig
  clock : Nat
  closed : Bool
  /-- The streams of the requests that wait for responses. -/
  pending : List (RequestId × Nat)
  /-- The streams that have not been given up, by number. -/
  streams : List (Nat × ResultStream)
  nextStream : Nat

namespace Client

/-- A client with an open connection. Settings that are not valid open none. -/
def connect (config : ConnectionConfig) : Except ConnectionError Client :=
  match config.validate with
  | .ok _ => .ok ⟨config, 0, false, [], [], 0⟩
  | .error e => .error (.connect config.url e.message)

def inFlight (c : Client) : Nat := c.pending.length

def stream? (c : Client) (number : Nat) : Option ResultStream := c.streams.lookup number

def mapStream (number : Nat) (f : ResultStream → ResultStream) (c : Client) : Client :=
  { c with streams := c.streams.map fun (n, s) => (n, if n = number then f s else s) }

/-- Takes a request out of the table. Nothing more reaches its stream. -/
def forget (id : RequestId) (c : Client) : Client :=
  match c.pending.lookup id with
  | some number =>
    { c.mapStream number ResultStream.disconnect with
      pending := c.pending.filter (·.1 != id) }
  | none => c

/-- Enters a request into the table, in place of an earlier one of the same identifier. -/
def register (id : RequestId) (c : Client) : Nat × Client :=
  let c := c.forget id
  (c.nextStream,
    { c with
      pending := (id, c.nextStream) :: c.pending
      streams := (c.nextStream, ⟨id, [], true, none, .open⟩) :: c.streams
      nextStream := c.nextStream + 1 })

/-- Gives a stream up. Its identifier leaves the table, whichever stream it stands for. -/
def release (number : Nat) (c : Client) : Client :=
  match c.stream? number with
  | none => c
  | some s =>
    let c := { c with streams := c.streams.filter (·.1 != number) }
    if s.phase = .ended then c else c.forget s.requestId

/-- Sends a request. The answer is the number of its stream and the text that goes out. -/
def send (request : TraversalRequest) (c : Client) :
    Except ConnectionError (Nat × String) × Client :=
  let (number, c) := c.register request.requestId
  if c.closed then (.error .closed, c.release number)
  else (.ok (number, (RequestMessage.ofRequest request).toJson.compact), c)

def itemsOf (response : ResponseMessage) : List StreamItem :=
  if response.isError then [.error (.server response.status.code response.status.message)]
  else response.result.map .ok

/-- Hands a response to the stream of its request. The last response takes the request out of the
table; a response to no pending request is dropped. -/
def route (response : ResponseMessage) (c : Client) : Client :=
  match response.requestId with
  | none => c
  | some id =>
    match c.pending.lookup id with
    | none => c
    | some number =>
      let c := c.mapStream number (·.deliver (itemsOf response))
      if response.isTerminal then c.forget id else c

/-- Takes in a text from the server. What is no response is dropped. -/
def receive (text : String) (c : Client) : Client :=
  if c.closed then c
  else
    match WireForm.ofText ResponseMessage text with
    | .ok response => c.route response
    | .error _ => c

/-- The connection is gone. All pending requests fail. -/
def lose (c : Client) : Client :=
  c.pending.foldl
    (fun c (id, number) =>
      (c.mapStream number (·.deliver [.error ConnectionError.closed.toTraversalError])).forget id)
    { c with closed := true }

/-- Ends a stream that has been read to its end. Its identifier leaves the table. -/
def endStream (number : Nat) (s : ResultStream) (c : Client) : Client :=
  (c.mapStream number fun s => { s with phase := .ended }).forget s.requestId

/-- Reads the next item of a stream. The wait for an item that is not there begins with the first poll
for it. -/
def poll (number : Nat) (c : Client) : StreamPoll × Client :=
  match c.stream? number with
  | none => (.ended, c)
  | some s =>
    match s.phase, s.unread with
    | .ended, _ => (.ended, c)
    | .failed, _ => (.ended, c.endStream number s)
    | .open, .ok raw :: rest =>
      (.item (.ok raw), c.mapStream number fun s => { s with unread := rest, deadline := none })
    | .open, .error e :: rest =>
      (.item (.error e), c.mapStream number fun s =>
        { s with unread := rest, deadline := none, phase := .failed })
    | .open, [] =>
      if !s.connected then (.ended, c.endStream number s)
      else
        let deadline := s.deadline.getD (c.clock + c.config.requestTimeout.milliseconds)
        if deadline ≤ c.clock then
          (.item (.error (ConnectionError.timeout c.config.requestTimeout).toTraversalError),
            c.mapStream number fun s => { s with phase := .failed })
        else (.pending, c.mapStream number fun s => { s with deadline := some deadline })

/-- Reads the next item of a stream, and waits for it to the end of the wait if it is not there. -/
def wait (number : Nat) (c : Client) : StreamPoll × Client :=
  match c.poll number with
  | (.pending, c) =>
    let deadline := ((c.stream? number).bind (·.deadline)).getD c.clock
    { c with clock := max c.clock deadline }.poll number
  | other => other

end Client

end PropertyGraph

import HttpService.HeadBuffer
import HttpService.Sink.Buffer

/-! Serving one connection: requests are read and answered one after another, until the client stops, the
connection is not kept, or a request cannot be read. -/

namespace HttpService

structure Peer where
  address : Option SocketAddress
  tls : Bool
deriving DecidableEq

/-- What a handler leaves behind: the message it panicked with if it did, the writer, and its own memory. -/
structure Served (κ τ : Type) where
  panic : Option String
  writer : Writer κ
  memory : τ

abbrev Serve (κ τ : Type) := Request → Writer κ → τ → Served κ τ

/-- The two occasions at which a connection asks how old it is: before it reads another request, and when it
decides what to announce in a response. -/
inductive Occasion
  | beforeRequest (served : Nat)
  | beforeResponse (served : Nat)
deriving DecidableEq

/-- What is settled when a connection is taken up. The age is in milliseconds. -/
structure Terms where
  connection : ConnectionLimits
  request : RequestLimits
  response : ResponseLimits
  peer : Peer
  age : Occasion → Nat

namespace Terms

def isTooOld (terms : Terms) (occasion : Occasion) : Bool :=
  decide (terms.connection.lifetime < terms.age occasion)

def requestOf (terms : Terms) (head : Head) (body : Bytes) : Request where
  method := head.method
  uri := head.uri
  version := head.version
  fields := head.fields
  body := body
  remote := terms.peer.address
  tls := terms.peer.tls

end Terms

structure Connection (τ : Type) where
  buffer : HeadBuffer
  source : Source
  outlet : Outlet
  response : ResponseBuffer
  version : Version
  memory : τ

inductive Stop
  | closed
  | failed (error : IoError)
  | refused (refusal : Refusal)
  | panicked (message : String)
deriving DecidableEq

def Stop.ofFailure : ReadFailure → Stop
  | .refused refusal => .refused refusal
  | .io error => .failed error
  | .panicked message => .panicked message

namespace Connection

variable {τ : Type}

def new (terms : Terms) (source : Source) (outlet : Outlet) (memory : τ) : Connection τ :=
  ⟨.new terms.request, source, outlet, .new terms.response, .http11, memory⟩

def reserve (terms : Terms) (source : Source) (outlet : Outlet) (memory : τ) : Except String (Connection τ) := do
  let buffer ← HeadBuffer.reserve terms.request
  let response ← ResponseBuffer.reserve terms.response
  return ⟨buffer, source, outlet, response, .http11, memory⟩

inductive Next (τ : Type)
  | stopped (stop : Stop) (connection : Connection τ)
  | request (request : Request) (keepAlive : Bool) (connection : Connection τ)

def readBody (terms : Terms) (connection : Connection τ) (head : Head) (stop : Nat) : Next τ :=
  let connection := { connection with version := head.version }
  if head.contentLength = 0 then
    .request (terms.requestOf head []) head.keepAlive
      { connection with buffer := connection.buffer.consume stop }
  else
    let reading := connection.buffer.readBody connection.source stop head.contentLength
    let connection := { connection with buffer := reading.buffer, source := reading.source }
    match reading.outcome with
    | .error failure => .stopped (.ofFailure failure) connection
    | .ok body => .request (terms.requestOf head body) head.keepAlive connection

def readRequest [FieldHash] (terms : Terms) (connection : Connection τ) : Next τ :=
  let reading := connection.buffer.readHead connection.source
  let connection := { connection with buffer := reading.buffer, source := reading.source }
  match reading.outcome with
  | .error failure => .stopped (.ofFailure failure) connection
  | .ok none => .stopped .closed connection
  | .ok (some stop) =>
    match Head.read terms.request connection.buffer.content stop with
    | .error failure => .stopped (.ofFailure failure) connection
    | .ok head => connection.readBody terms head stop

def answer (terms : Terms) (serve : Serve ResponseBuffer τ) (connection : Connection τ) (request : Request)
    (keepAlive : Bool) : Except Stop Bool × Connection τ :=
  let served := serve request (connection.response.freshWriter request terms.response) connection.memory
  match served.panic with
  | some message =>
    (.error (.panicked message), { connection with response := served.writer.sink, memory := served.memory })
  | none =>
    let finished := served.writer.sink.finish connection.outlet keepAlive
    let connection :=
      { connection with response := finished.buffer, outlet := finished.outlet, memory := served.memory }
    match finished.kept with
    | .error error => (.error (.failed error), connection)
    | .ok kept => (.ok kept, connection)

/-- Serves as many requests as `remaining` allows; `served` counts those before. The last one that is allowed
is answered with the announcement that the connection closes. -/
def serveAll [FieldHash] (terms : Terms) (serve : Serve ResponseBuffer τ) :
    Nat → Nat → Connection τ → Stop × Connection τ
  | 0, _, connection => (.closed, connection)
  | remaining + 1, served, connection =>
    if terms.isTooOld (.beforeRequest served) then (.closed, connection)
    else
      match connection.readRequest terms with
      | .stopped stop connection => (stop, connection)
      | .request request keepAlive connection =>
        let keepAlive :=
          keepAlive && decide (remaining ≠ 0) && !terms.isTooOld (.beforeResponse (served + 1))
        match connection.answer terms serve request keepAlive with
        | (.error stop, connection) => (stop, connection)
        | (.ok false, connection) => (.closed, connection)
        | (.ok true, connection) => serveAll terms serve remaining (served + 1) connection

def sendRefusal (connection : Connection τ) (refusal : Refusal) : Stop × Connection τ :=
  match connection.outlet.writeAll (refusal.answer connection.version) with
  | (.error error, outlet) => (.failed error, { connection with outlet := outlet })
  | (.ok (), outlet) =>
    match outlet.flush with
    | (.error error, outlet) => (.failed error, { connection with outlet := outlet })
    | (.ok (), outlet) => (.closed, { connection with outlet := outlet })

def run [FieldHash] (terms : Terms) (serve : Serve ResponseBuffer τ) (connection : Connection τ) :
    Stop × Connection τ :=
  match connection.serveAll terms serve terms.connection.maxRequests 0 with
  | (.refused refusal, connection) => connection.sendRefusal refusal
  | stopped => stopped

end Connection

end HttpService

import HttpService.Listen.Startup
import HttpService.Script.Site

/-! A server of scripts and its clients, one after another, over a network that may not be there. -/

namespace HttpService

inductive Network
  | reachable
  | unreachable
deriving DecidableEq

namespace Network

def failure : IoError := ⟨.networkUnreachable, "Network is unreachable (os error 101)"⟩

end Network

structure Visit where
  responses : List (Except IoError Bytes)
  world : World Memory

namespace Site

def serveClients [FieldHash] (site : Site) (network : Network) (terms : Terms) (world : World Memory) :
    List Bytes → Visit
  | [] => ⟨[], world⟩
  | sent :: rest =>
    match network with
    | .unreachable =>
      let visit := site.serveClients network terms world rest
      ⟨.error Network.failure :: visit.responses, visit.world⟩
    | .reachable =>
      let arrivals : Source := if sent.isEmpty then [] else [.piece sent]
      let (taken, world) :=
        match site.serveConnection terms arrivals .unlimited world with
        | .ok (_, connection) => (connection.outlet.taken, connection.memory)
        | .error _ => ([], world)
      let visit := site.serveClients network terms world rest
      ⟨.ok taken :: visit.responses, visit.world⟩

/-- Starts a server on a listener that is bound already, serves the clients, and stops it. A native handler has
no server that would announce itself. -/
def visit [FieldHash] (site : Site) (network : Network) (terms : Terms) (address : String) (limits : PoolLimits)
    (clients : List Bytes) : Except String Visit := do
  let world ← site.firstWorld limits
  let config : Config := { address := address, listener := true }
  let announced :=
    match site.serving with
    | .bare => world
    | _ => world.report (site.logger.log .info config.startMessage)
  return site.serveClients network terms announced clients

end Site

end HttpService

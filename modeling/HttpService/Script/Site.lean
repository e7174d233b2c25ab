import HttpService.Handler.Run
import HttpService.Script.Program

/-! Servers of scripts at work: on single requests, on connections, and for clients. -/

namespace HttpService

structure Job where
  request : Request
  target : TargetSpec
  script : Script

structure Report where
  trace : List Entry
  panic : Option String
  outcome : Outcome
  stats : Option PoolsStats
  log : List LogEntry

namespace Site

def firstWorld (site : Site) (limits : PoolLimits) : Except String (World Memory) := do
  let pools ←
    match site.serving with
    | .bare => pure none
    | _ => some <$> Pools.reserve limits
  return ⟨pools, [], .start⟩

def serve (site : Site) (own : Script) {κ : Type} [Sink κ] : Serve κ (World Memory) :=
  match site.serving with
  | .bare => (site.bareHandler own).serve
  | _ => (site.handler (site.depth own) own).serve site.logger

def dispatch (site : Site) (world : World Memory) (job : Job) : Report × World Memory :=
  let world := { world with log := [], memory := { world.memory with trace := [] } }
  let served := site.serve job.script job.request (job.target.writer job.request) world
  (⟨served.memory.memory.trace, served.panic, served.writer.sink.close, served.memory.pools.map Pools.stats,
    served.memory.log⟩, served.memory)

def dispatchAll (site : Site) (world : World Memory) : List Job → List Report
  | [] => []
  | job :: rest =>
    let (report, world) := site.dispatch world job
    report :: site.dispatchAll world rest

def serveConnection [FieldHash] (site : Site) (terms : Terms) (source : Source) (outlet : Outlet)
    (world : World Memory) : Except String (Stop × Connection (World Memory)) := do
  let connection ← Connection.reserve terms source outlet world
  return connection.run terms (site.serve .empty)

end Site

end HttpService

import HttpService.Handler.Chain
import HttpService.Proofs.Interchange
import HttpService.Proofs.Isolation

/-! A native handler that serves a connection by itself, and the same handler as the endpoint of a chain on a server.
On the wire there is no difference, nor is there one for the handler. -/

namespace HttpService

inductive ResponseBuffer.Veiled : ResponseBuffer → ResponseAdapter ResponseBuffer → Prop
  | front {buffer : ResponseBuffer} {tally : Tally} (known : tally.committed = true → buffer.status.isSome = true) :
      Veiled buffer ⟨some buffer, tally⟩

namespace ResponseBuffer

theorem sendHead_of_some {buffer : ResponseBuffer} {earlier : Status} (sent : buffer.status = some earlier)
    (status : Status) (fields : Fields) : buffer.sendHead status fields = buffer := by
  simp only [sendHead, sent]

theorem isSome_status_sendHead (buffer : ResponseBuffer) (status : Status) (fields : Fields) :
    (buffer.sendHead status fields).status.isSome = true := by
  cases sent : buffer.status with
  | none => simp only [sendHead, sent, Option.isSome_some]
  | some earlier => rw [sendHead_of_some sent, sent, Option.isSome_some]

theorem Veiled.sink_eq {buffer : ResponseBuffer} {adapter : ResponseAdapter ResponseBuffer}
    (veiled : buffer.Veiled adapter) : adapter.sink = some buffer := by
  cases veiled
  rfl

theorem Veiled.committed {buffer : ResponseBuffer} {adapter : ResponseAdapter ResponseBuffer}
    (veiled : buffer.Veiled adapter) : adapter.committed = buffer.status.isSome := by
  cases veiled with
  | @front tally known =>
      simp only [ResponseAdapter.committed, Option.any_some, Sink.committed]
      cases told : tally.committed with
      | true => rw [known told, Bool.or_self]
      | false => rw [Bool.false_or]

theorem interchange_veiled : Sink.Interchange Veiled where
  writeHead {buffer adapter} veiled status fields := by
    have same := veiled.committed
    obtain ⟨known⟩ := veiled
    simp only [Sink.writeHead, ResponseAdapter.commit, same]
    cases sent : buffer.status with
    | none => exact ⟨rfl, .front fun _ => buffer.isSome_status_sendHead status fields⟩
    | some earlier =>
        rw [sendHead_of_some sent]
        exact ⟨rfl, .front fun _ => Option.isSome_of_eq_some sent⟩
  writeBody {buffer adapter} veiled content := by
    obtain ⟨known⟩ := veiled
    simp only [Sink.writeBody, ResponseAdapter.write]
    cases sent : buffer.status with
    | none => exact ⟨rfl, .front known⟩
    | some earlier => exact ⟨rfl, .front fun _ => rfl⟩
  committed veiled := veiled.committed.symm
  flush veiled := by
    obtain ⟨known⟩ := veiled
    exact ⟨rfl, .front known⟩

end ResponseBuffer

section

variable {τ υ κ : Type}

def Served.over (change : τ → υ) (served : Served κ τ) : Served κ υ := ⟨served.panic, served.writer, change served.memory⟩

def Connection.over (change : τ → υ) (connection : Connection τ) : Connection υ :=
  { connection with memory := change connection.memory }

namespace Connection

def Next.over (change : τ → υ) : Next τ → Next υ
  | .stopped stop connection => .stopped stop (connection.over change)
  | .request asked keepAlive connection => .request asked keepAlive (connection.over change)

variable {change : τ → υ}

theorem readBody_over (terms : Terms) (connection : Connection τ) (head : Head) (stop : Nat) :
    (connection.over change).readBody terms head stop = (connection.readBody terms head stop).over change := by
  simp only [readBody]
  split
  · rfl
  · simp only [Connection.over]
    split <;> rfl

theorem readRequest_over [FieldHash] (terms : Terms) (connection : Connection τ) :
    (connection.over change).readRequest terms = (connection.readRequest terms).over change := by
  simp only [readRequest]
  simp only [Connection.over]
  split
  · rfl
  · rfl
  · split
    · rfl
    · let reading := connection.buffer.readHead connection.source
      exact readBody_over terms { connection with buffer := reading.buffer, source := reading.source } _ _

variable {serve : Serve ResponseBuffer τ} {plain : Serve ResponseBuffer υ}

theorem answer_over
    (same : ∀ request writer memory, (serve request writer memory).over change = plain request writer (change memory))
    (terms : Terms) (connection : Connection τ) (request : Request) (keepAlive : Bool) :
    (connection.over change).answer terms plain request keepAlive =
      (connection.answer terms serve request keepAlive).map id (Connection.over change) := by
  have served := same request (connection.response.freshWriter request terms.response) connection.memory
  simp only [answer, Connection.over, ← served]
  simp only [Served.over]
  split
  · rfl
  · split <;> rfl

theorem serveAll_over [FieldHash]
    (same : ∀ request writer memory, (serve request writer memory).over change = plain request writer (change memory))
    (terms : Terms) (remaining served : Nat) (connection : Connection τ) :
    (connection.over change).serveAll terms plain remaining served =
      (connection.serveAll terms serve remaining served).map id (Connection.over change) := by
  induction remaining generalizing served connection with
  | zero => rfl
  | succ remaining ih =>
      simp only [serveAll, readRequest_over]
      split
      · rfl
      · cases connection.readRequest terms with
        | stopped stop connection => rfl
        | request request keepAlive connection =>
            simp only [Next.over, answer_over same]
            obtain ⟨outcome, next⟩ := connection.answer terms serve request
              (keepAlive && decide (remaining ≠ 0) && !terms.isTooOld (.beforeResponse (served + 1)))
            cases outcome with
            | error stop => rfl
            | ok kept =>
                cases kept with
                | false => rfl
                | true => exact ih (served + 1) next

theorem run_over [FieldHash]
    (same : ∀ request writer memory, (serve request writer memory).over change = plain request writer (change memory))
    (terms : Terms) (connection : Connection τ) :
    (connection.over change).run terms plain = (connection.run terms serve).map id (Connection.over change) := by
  simp only [run, serveAll_over same]
  obtain ⟨stop, last⟩ := connection.serveAll terms serve terms.connection.maxRequests 0
  cases stop with
  | refused refusal =>
      simp only [Prod.map, id_eq, sendRefusal]
      simp only [Connection.over]
      split
      · rfl
      · split <;> rfl
  | _ => rfl

end Connection

end

theorem Program.blind_chain {σ τ : Type} {handler : Program σ τ} (blind : handler.Blind) (logger : Logger) :
    (chain logger handler).Blind := by
  refine ⟨blind, fun result => ?_⟩
  cases result with
  | ok => trivial
  | error error =>
      refine ⟨by simp, fun method => ⟨by simp, fun uri => ⟨by simp, fun _ => ⟨by simp, fun committed => ?_⟩⟩⟩⟩
      cases committed <;> simp [Blind, succeed]

namespace NativeProgram

variable {σ τ κ : Type} [Sink σ] [Sink κ]

def idle : InnerCall τ := fun _ writer world => ⟨.finished (.ok ()), writer, world⟩

theorem captured_run_idle (handler : NativeProgram σ τ) (given : Request) (captured : Option HandlerError)
    (writer : Writer κ) (world : World τ) : (handler.run idle given captured writer world).captured = captured := by
  induction handler generalizing captured writer world with
  | done => rfl
  | panic message => rfl
  | «recall» next ih => exact ih world.memory captured writer world
  | remember memory next ih => exact ih captured writer _
  | ask next ih => exact ih given captured writer world
  | call op next ih => exact ih _ captured _ world
  | inner request next ih => exact ih captured writer world
  | innerForeign request foreign next ih => exact ih foreign captured writer world

/-- A native handler as the endpoint of a chain on a server. -/
def serveOnServer (handler : NativeProgram σ τ) (chainLogger logger : Logger) : Serve κ (World τ) :=
  (Program.chain chainLogger (.ofNative handler)).serve logger

theorem run_chain_ofNative (handler : NativeProgram σ τ) (chainLogger logger inherited : Logger) (request : Request)
    (writer : Writer κ) (world : World τ) :
    let exchange := Pools.Lease.fresh.bind request writer inherited
    let veiled : Writer (ResponseAdapter κ) := ⟨writer.fields, { sink := some writer.sink }⟩
    let native := handler.run idle request none veiled world
    let run := (Program.chain chainLogger (.ofNative handler)).run logger exchange world
    run.ending.panic? = native.panic ∧
      run.exchange.writer writer = ⟨native.writer.fields, native.writer.sink.sink.getD writer.sink⟩ ∧
      run.world = native.world := by
  intro exchange veiled native run
  have bound : exchange.request.bound = some request := rfl
  have given : exchange.response.native? = some veiled := rfl
  have calls : handler.run (fun request writer world => withViews (exchange.response.logger.getD .tracing)
      (fun exchange world => (Program.succeed : Program σ τ).run logger exchange world) request writer world) request
      none veiled world = native := rfl
  have captured : native.captured = none := handler.captured_run_idle request none _ world
  dsimp only [run]
  rw [Program.chain, Program.run, Program.ofNative, Program.run]
  simp only [bound, given, calls]
  cases native.panic with
  | none =>
      rw [captured]
      exact ⟨rfl, rfl, rfl⟩
  | some message => exact ⟨rfl, rfl, rfl⟩

theorem serveOnServer_over (handler : NativeProgram σ τ) (chainLogger logger : Logger) (request : Request)
    (writer : Writer ResponseBuffer) (world : World τ) :
    (handler.serveOnServer chainLogger logger request writer world).over World.withoutPools =
      handler.serve request writer world.withoutPools := by
  have bare : (Program.ofNative handler).Blind := ⟨trivial, fun result => trivial⟩
  have blind := Program.blind_chain bare chainLogger
  have fresh := dispatch_withoutPools (fun exchange world => Program.run_withoutPools blind logger exchange world)
    logger request writer world
  let veiled : Writer (ResponseAdapter ResponseBuffer) := ⟨writer.fields, { sink := some writer.sink }⟩
  obtain ⟨ending, after, later⟩ := handler.run_chain_ofNative chainLogger logger logger request writer world.withoutPools
  have same : NativeRun.Alike ResponseBuffer.Veiled (handler.run idle request none writer world.withoutPools)
      (handler.run idle request none veiled world.withoutPools) :=
    handler.alike_run (fun _ _ _ _ same _ => ⟨rfl, same, rfl⟩) request none ResponseBuffer.interchange_veiled
      ⟨rfl, .front fun told => absurd told Bool.false_ne_true⟩ world.withoutPools
  obtain ⟨panic, _, ⟨fields, sink⟩, worlds⟩ := same
  have panics := (congrArg (fun call => call.ending.panic?) fresh).trans (ending.trans panic.symm)
  have writers := (congrArg Call.writer fresh).trans after
  have memories := (congrArg Call.world fresh).trans (later.trans worlds.symm)
  simp only [veiled] at fields sink
  rw [← fields, sink.sink_eq, Option.getD_some] at writers
  simp only [serveOnServer, Program.serve, Served.over, serve, Served.mk.injEq]
  exact ⟨panics, writers, memories⟩

theorem serve_noting_over (handler : NativeProgram σ τ) (request : Request) (writer : Writer κ)
    (world : World (τ × List (Observation σ))) :
    (handler.noting.serve request writer world).over World.forget = handler.serve request writer world.forget := by
  have told : (handler.noting.run idle request none writer world).over World.forget =
      handler.run idle request none writer world.forget :=
    handler.run_noting (fun _ _ _ => rfl) request none writer world
  have panic := congrArg NativeRun.panic told
  have after := congrArg NativeRun.writer told
  have later := congrArg NativeRun.world told
  simp only [Served.over, serve, Served.mk.injEq]
  exact ⟨panic, after, later⟩

/-- A connection served by a native handler alone, and by a server whose chain ends in this handler: it stops the same,
the same bytes have gone out, and the handler has been called with the same requests and has got the same answers. -/
theorem run_serveOnServer [FieldHash] (terms : Terms) (handler : NativeProgram σ τ) (chainLogger logger : Logger)
    (connection : Connection (World τ)) :
    let calls : NativeProgram σ (τ × List (Observation σ)) := (NativeProgram.ask fun _ => handler).noting
    let unnoted : Connection (World (τ × List (Observation σ))) :=
      connection.over fun world => ⟨world.pools, world.log, (world.memory, [])⟩
    let direct := (connection.over World.withoutPools).run terms handler.serve
    let served := connection.run terms (handler.serveOnServer chainLogger logger)
    let directNoted := (unnoted.over World.withoutPools).run terms calls.serve
    let servedNoted := unnoted.run terms (calls.serveOnServer chainLogger logger)
    direct = (served.1, served.2.over World.withoutPools) ∧
      directNoted = (servedNoted.1, servedNoted.2.over World.withoutPools) ∧
      direct = (directNoted.1, directNoted.2.over World.forget) := by
  intro calls unnoted direct served directNoted servedNoted
  refine ⟨?_, ?_, ?_⟩
  · exact Connection.run_over (fun request writer world =>
      handler.serveOnServer_over chainLogger logger request writer world) terms connection
  · exact Connection.run_over (fun request writer world =>
      calls.serveOnServer_over chainLogger logger request writer world) terms unnoted
  · exact Connection.run_over (fun request writer world =>
      (NativeProgram.ask fun _ => handler).serve_noting_over request writer world) terms
      (unnoted.over World.withoutPools)

end NativeProgram

end HttpService

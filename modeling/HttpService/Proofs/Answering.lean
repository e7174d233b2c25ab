import HttpService.Proofs.Failure
import HttpService.Proofs.Isolation
import HttpService.Proofs.Stacking

/-! What a chain adds to what its handler has done: nothing where the handler succeeds; where it fails, one line in the
log, and an answer if nothing has been sent. -/

namespace HttpService

namespace Target

variable {target : Target}

/-- What a target has received: at most one head, and body bytes. -/
def Holds (draft : Draft) : Target → Prop
  | .buffer state => ∃ request, draft.Holds request state
  | .recorder state => state.status = draft.head.map Prod.fst ∧ state.head = draft.head.map Prod.snd ∧
      state.headWrites = draft.head.toList.length ∧ state.body = draft.body

def Ready (target : Target) : Prop := Sink.committed target = false → ∃ body, target.Holds ⟨none, body⟩

theorem committed_writeHead {status : Status} {fields : Fields}
    (sent : (Sink.writeHead target status fields).result = .ok ()) :
    Sink.committed (Sink.writeHead target status fields).state = true := by
  cases target with
  | buffer buffer =>
      cases known : buffer.status <;>
        simp [Sink.writeHead, lift, Sink.committed, ResponseBuffer.sendHead, known]
  | recorder recorder =>
      simp only [Sink.writeHead, lift, Recorder.writeHead, Sink.committed] at sent ⊢
      cases policy : recorder.policy.failHead with
      | some error => simp [policy] at sent
      | none =>
          cases known : recorder.status <;> simp [known]

instance : Sink.Firm Target where
  head {target status fields error} failed := by
    cases target with
    | buffer buffer => exact congrArg Target.buffer (@Sink.Firm.head ResponseBuffer _ _ _ _ _ _ failed)
    | recorder recorder => exact congrArg Target.recorder (@Sink.Firm.head Recorder _ _ _ _ _ _ failed)
  body {target content error} failed := by
    cases target with
    | buffer buffer => exact congrArg Target.buffer (@Sink.Firm.body ResponseBuffer _ _ _ _ _ failed)
    | recorder recorder => exact congrArg Target.recorder (@Sink.Firm.body Recorder _ _ _ _ _ failed)
  flush {target error} failed := by
    cases target with
    | buffer buffer => exact congrArg Target.buffer (@Sink.Firm.flush ResponseBuffer _ _ _ _ failed)
    | recorder recorder => exact congrArg Target.recorder (@Sink.Firm.flush Recorder _ _ _ _ failed)

theorem Holds.writeHead {draft : Draft} {status : Status} {fields : Fields} (holds : target.Holds draft)
    (unsent : draft.head = none) (sent : (Sink.writeHead target status fields).result = .ok ()) :
    (Sink.writeHead target status fields).state.Holds ⟨some (status, fields), draft.body⟩ := by
  obtain ⟨head, body⟩ := draft
  obtain rfl : head = none := unsent
  cases target with
  | buffer buffer =>
      obtain ⟨request, held⟩ := holds
      exact ⟨request, held.sendHead status fields⟩
  | recorder recorder =>
      obtain ⟨unsent, _, none, taken⟩ := holds
      simp only [Sink.writeHead, lift, Recorder.writeHead] at sent ⊢
      cases policy : recorder.policy.failHead with
      | some error => simp [policy] at sent
      | none =>
          simp only [unsent, Option.map_none, Option.isSome_none, Bool.false_eq_true, ↓reduceIte]
          exact ⟨rfl, rfl, by rw [none]; rfl, taken⟩

theorem Holds.writeBody {draft : Draft} {content : Bytes} (holds : target.Holds draft)
    (taken : (Sink.writeBody target content).result = .ok content.length) :
    (Sink.writeBody target content).state.Holds (draft.take content) := by
  cases target with
  | buffer state =>
      obtain ⟨request, held⟩ := holds
      cases sent : draft.head with
      | none =>
          have refused : (Sink.writeBody state content).result = .ok content.length := taken
          rw [held.writeBody_of_none sent content] at refused
          cases refused
      | some head => exact ⟨request, (held.writeBody_of_some sent content).2⟩
  | recorder state =>
      obtain ⟨status, head, count, body⟩ := holds
      have told : (Recorder.writeBody state content).result = .ok content.length := taken
      change Holds (draft.take content) (.recorder (Recorder.writeBody state content).state)
      rw [Recorder.writeBody] at told ⊢
      cases refused : state.policy.failBody with
      | some error => simp [refused] at told
      | none =>
          simp only [refused] at told ⊢
          split at told
          · cases told
          · have whole := Except.ok.inj told
            simp only [whole, List.take_length]
            exact ⟨status, head, count, congrArg (· ++ content) body⟩

theorem Ready.perform (ready : target.Ready) (call : SinkCall) : (call.perform target).2.Ready := by
  intro later
  have unsent : Sink.committed target = false := by
    cases known : Sink.committed target with
    | false => rfl
    | true => simp [Sink.Lasting.perform known call] at later
  obtain ⟨body, holds⟩ := ready unsent
  cases call with
  | head status fields =>
      cases answered : (Sink.writeHead target status fields).result with
      | ok => exact absurd (committed_writeHead answered) (by simpa [SinkCall.perform] using later)
      | error error =>
          have same : (SinkCall.perform target (.head status fields)).2 = target := Sink.Firm.head answered
          rw [same]
          exact ⟨body, holds⟩
  | body content =>
      cases target with
      | buffer state =>
          obtain ⟨request, held⟩ := holds
          have same : (Sink.writeBody state content).state = state := by rw [held.writeBody_of_none rfl]
          exact ⟨body, request, same.symm ▸ held⟩
      | recorder state =>
          obtain ⟨status, head, count, _⟩ := holds
          have kept : (Recorder.writeBody state content).state.status = state.status ∧
              (Recorder.writeBody state content).state.head = state.head ∧
              (Recorder.writeBody state content).state.headWrites = state.headWrites := by
            rw [Recorder.writeBody]
            split
            · exact ⟨rfl, rfl, rfl⟩
            · dsimp only
              split <;> exact ⟨rfl, rfl, rfl⟩
          exact ⟨(Recorder.writeBody state content).state.body, kept.1.trans status, kept.2.1.trans head,
            kept.2.2.trans count, rfl⟩
  | flush =>
      cases target with
      | buffer state => exact ⟨body, holds⟩
      | recorder state =>
          have kept : (Recorder.flush state).state = { state with flushes := (Recorder.flush state).state.flushes } := by
            rw [Recorder.flush]
            split
            · rfl
            · split <;> rfl
          have held : (Recorder.flush state).state.status = none ∧ (Recorder.flush state).state.head = none ∧
              (Recorder.flush state).state.headWrites = 0 ∧ (Recorder.flush state).state.body = body := by
            rw [kept]
            exact holds
          exact ⟨body, held⟩

end Target

namespace ResponseAdapter

variable {κ : Type} [Sink κ]

structure Mirrors (adapter : ResponseAdapter κ) (sink : κ) : Prop where
  bound : adapter.sink = some sink
  told : adapter.tally.committed = true → Sink.committed sink = true

theorem Mirrors.committed_eq {adapter : ResponseAdapter κ} {sink : κ} (mirrors : adapter.Mirrors sink) :
    adapter.committed = Sink.committed sink := by
  obtain ⟨_, tally⟩ := adapter
  obtain ⟨rfl, told⟩ := mirrors
  rw [committed_of_some]
  cases known : tally.committed with
  | false => rfl
  | true => rw [told known]; rfl

theorem Mirrors.perform {adapter : ResponseAdapter Target} {sink : Target} (mirrors : adapter.Mirrors sink)
    (call : SinkCall) : ∃ later, (call.perform adapter).2.Mirrors later := by
  have same := mirrors.committed_eq
  obtain ⟨_, tally⟩ := adapter
  obtain ⟨rfl, told⟩ := mirrors
  cases call with
  | head status fields =>
      cases sent : (⟨some sink, tally⟩ : ResponseAdapter Target).committed with
      | true =>
          have head := writeHead_of_committed sent status fields
          exact ⟨sink, congrArg (fun attempt => attempt.state.sink) head, fun _ => same.symm.trans sent⟩
      | false =>
          have untold : tally.committed = false := (Bool.or_eq_false_iff.mp sent).1
          have head := writeHead_of_not_committed sent status fields
          refine ⟨(Sink.writeHead sink status fields).state, congrArg (fun attempt => attempt.state.sink) head, ?_⟩
          simp only [SinkCall.perform, head]
          cases answered : (Sink.writeHead sink status fields).result with
          | ok => exact fun _ => Target.committed_writeHead answered
          | error error => exact fun known => absurd known (by simp [Tally.afterHead, untold])
  | body content =>
      have body := writeBody_of_some sink tally content
      refine ⟨(Sink.writeBody sink content).state, congrArg (fun attempt => attempt.state.sink) body, ?_⟩
      simp only [SinkCall.perform, body]
      exact fun known => Sink.Lasting.body (told known) content
  | flush => exact ⟨(Sink.flush sink).state, rfl, fun known => Sink.Lasting.flush (told known)⟩

end ResponseAdapter

/-- The sink takes whatever head comes next, and the whole of the body bytes behind it. -/
structure Sink.Accepts {κ : Type} [Sink κ] (sink : κ) : Prop where
  head : ∀ status fields, (writeHead sink status fields).result = .ok ()
  body : ∀ status fields content, (writeBody (writeHead sink status fields).state content).result = .ok content.length

def Sink.RefusesHeads {κ : Type} [Sink κ] (sink : κ) : Prop :=
  ∀ status fields, ∃ error, (writeHead sink status fields).result = .error error

theorem Target.accepts_of_plain {target : Target} (plain : ∀ state, target = .recorder state →
    state.policy.failHead = none ∧ state.policy.failBody = none ∧ state.policy.short = none ∧
      state.policy.bodyLimit = none) : Sink.Accepts target := by
  cases target with
  | buffer state =>
      refine ⟨fun _ _ => rfl, fun status fields content => ?_⟩
      have sent : Sink.committed (Sink.writeHead (Target.buffer state) status fields).state = true :=
        committed_writeHead rfl
      obtain ⟨code, known⟩ : ∃ code, (state.sendHead status fields).status = some code := Option.isSome_iff_exists.mp sent
      simp only [Sink.writeHead, lift, Sink.writeBody, known]
  | recorder state =>
      obtain ⟨head, body, short, limit⟩ := plain state rfl
      have headed (status : Status) (fields : Fields) :
          (Recorder.writeHead state status fields).result = .ok () ∧
            (Recorder.writeHead state status fields).state.policy = state.policy := by
        simp only [Recorder.writeHead, head]
        split <;> exact ⟨rfl, rfl⟩
      refine ⟨fun status fields => (headed status fields).1, fun status fields content => ?_⟩
      simp only [Sink.writeHead, lift, Sink.writeBody, Recorder.writeBody, (headed status fields).2, body, short, limit,
        Option.getD_none, Nat.min_self, Option.filter_none]

namespace HandlerError

variable {κ : Type} [Sink κ] {writer : Writer κ}

theorem answer_of_accepts (error : HandlerError) (accepts : Sink.Accepts writer.sink) :
    let marked := writer.fields.insert .contentType .plainText
    error.answer writer = ⟨marked, (SinkCall.performAll writer.sink
      [.head error.answeredStatus marked, .body (Utf8.encode error.message)]).2⟩ := by
  intro marked
  have sent := accepts.head error.answeredStatus marked
  simp only [answer, Writer.writeHead, marked] at sent ⊢
  rw [sent]
  rfl

theorem holds_answer (error : HandlerError) {writer : Writer Target} {body : Bytes}
    (holds : writer.sink.Holds ⟨none, body⟩) (accepts : Sink.Accepts writer.sink) :
    (error.answer writer).sink.Holds ⟨some (error.answeredStatus, writer.fields.insert .contentType .plainText),
      body ++ Utf8.encode error.message⟩ := by
  rw [answer_of_accepts error accepts]
  exact (holds.writeHead rfl (accepts.head ..)).writeBody (accepts.body ..)

theorem answer_of_refusesHeads [Sink.Firm κ] (error : HandlerError) (unsent : Sink.committed writer.sink = false)
    (refuses : Sink.RefusesHeads writer.sink) :
    error.answer writer = { writer with fields := writer.fields.insert .contentType .plainText } := by
  have same (status : Status) (fields : Fields) : (Sink.writeHead writer.sink status fields).state = writer.sink := by
    obtain ⟨failure, refused⟩ := refuses status fields
    exact Sink.Firm.head refused
  obtain ⟨first, refused⟩ := refuses error.answeredStatus (writer.fields.insert .contentType .plainText)
  obtain ⟨second, refusedToo⟩ := refuses .ok (writer.fields.insert .contentType .plainText)
  simp only [answer, Writer.writeHead, Writer.withSink, refused, same, Writer.write, unsent, Bool.false_eq_true,
    ↓reduceIte, refusedToo]

end HandlerError

/-- A layer around a handler: a middleware on views, which is any function of handlers, or a native one behind a
bridge. -/
inductive Middleware (σ τ : Type)
  | views (wrap : Program σ τ → Program σ τ)
  | native (middleware : NativeProgram σ τ)

namespace Program

variable {σ τ : Type}

def layered (endpoint : Program σ τ) (layers : List (Middleware σ τ)) : Program σ τ :=
  layers.foldl (fun handler layer =>
    match layer with
    | .views wrap => wrap handler
    | .native middleware => .wrapNative middleware handler) endpoint

variable [Sink σ]

theorem mirrors_run (program : Program σ τ) (logger : Logger) {exchange : Exchange Target} {sink : Target}
    (mirrors : exchange.response.adapter.Mirrors sink) (world : World τ) :
    ∃ later, (program.run logger exchange world).exchange.response.adapter.Mirrors later := by
  have leads := program.leads_run logger exchange world
  refine leads.keeps (fun adapter => ∃ sink, adapter.Mirrors sink) ?_ ⟨sink, mirrors⟩
  rintro call adapter ⟨sink, mirrors⟩
  exact mirrors.perform call

theorem run_chain_of_calm {handler : Program σ τ} {logger : Logger} {κ : Type} [Sink κ] {exchange : Exchange κ}
    {world : World τ} (calm : ∀ error, (handler.run logger exchange world).ending ≠ .finished (.error error))
    (chainLogger : Logger) :
    (chain chainLogger handler).run logger exchange world = handler.run logger exchange world := by
  simp only [chain, run]
  generalize handler.run logger exchange world = run at calm ⊢
  obtain ⟨ending, after, later⟩ := run
  cases ending with
  | panicked message => rfl
  | finished result =>
      cases result with
      | ok => rfl
      | error error => exact absurd rfl (calm error)

section

variable {handler : Program σ τ} {logger : Logger} {request : Request} {world : World τ}

theorem dispatch_chain_of_calm {κ : Type} [Sink κ] {writer : Writer κ}
    (calm : ∀ error, (dispatch logger (fun exchange world => handler.run logger exchange world) request writer
      world).ending ≠ .finished (.error error)) (chainLogger : Logger) :
    dispatch logger (fun exchange world => (chain chainLogger handler).run logger exchange world) request writer world =
      dispatch logger (fun exchange world => handler.run logger exchange world) request writer world := by
  obtain ⟨pools, back, known⟩ := exists_dispatch_eq logger request writer world
  rw [known] at calm
  rw [known, known, run_chain_of_calm calm]

theorem dispatch_chain_of_error {writer : Writer Target} {error : HandlerError}
    (failed : (dispatch logger (fun exchange world => handler.run logger exchange world) request writer world).ending =
      .finished (.error error)) (chainLogger : Logger) :
    let alone := dispatch logger (fun exchange world => handler.run logger exchange world) request writer world
    let served := dispatch logger (fun exchange world => (chain chainLogger handler).run logger exchange world) request
      writer world
    served.ending = .finished (.ok ()) ∧
      served.writer = (if Sink.committed alone.writer.sink then alone.writer else error.answer alone.writer) ∧
      served.world = alone.world.report (chainLogger.log .error
        s!"{Method.text request.method} {Utf8.lossy request.uri.pathAndQuery}: {error.message}") := by
  intro alone served
  let bound : Exchange Target := Pools.Lease.fresh.bind request writer logger
  have sound : bound.Sound request logger := Exchange.sound_bind .fresh request writer logger
  have mirrors : bound.response.adapter.Mirrors writer.sink := ⟨rfl, fun told => absurd told Bool.false_ne_true⟩
  obtain ⟨pools, back, known⟩ := exists_dispatch_eq logger request writer world
  let inside : World τ := { world with pools := pools }
  obtain ⟨sink, mirrored⟩ := handler.mirrors_run logger mirrors inside
  have aloneEq : alone = (handler.run logger bound inside).call writer back := known _
  have servedEq : served = ((chain chainLogger handler).run logger bound inside).call writer back := known _
  rw [known] at failed
  cases ran : handler.run logger bound inside with
  | mk ending after later =>
      obtain rfl : ending = .finished (.error error) := (congrArg Run.ending ran).symm.trans failed
      rw [ran] at aloneEq mirrored
      obtain ⟨ends, answers, tells⟩ := run_chain_of_error sound ran chainLogger writer
      have left : (after.writer writer).sink = sink := by rw [Exchange.writer, mirrored.bound, Option.getD_some]
      rw [mirrored.committed_eq, ← left] at answers
      rw [servedEq, aloneEq]
      refine ⟨ends, answers, ?_⟩
      simp only [Run.call, tells, World.report]

end

end Program

end HttpService

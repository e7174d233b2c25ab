import HttpService.Handler.Error
import HttpService.Pool

/-! Handlers as programs: trees of operations, in which every answer chooses what follows. A program learns about
its request and its response from the answers alone. Programs share a memory of type `τ`, and may bring writers
of their own over sinks of type `σ`. -/

namespace HttpService

inductive Op
  | request (op : RequestOp)
  | response (op : ResponseOp)
  | log (logger : Logger) (level : Level) (message : String)
  | poolStats
deriving DecidableEq

abbrev Op.Answer : Op → Type
  | request op => op.Answer
  | response op => op.Answer
  | log _ _ _ => Unit
  | poolStats => Option PoolsStats

/-- A native handler: it is given a whole request and a writer. As a middleware it also calls the handler that
it wraps, with a request of its choice, and with its own writer or with a foreign one, which it gets back. -/
inductive NativeProgram (σ τ : Type)
  | done
  | panic (message : String)
  | recall (next : τ → NativeProgram σ τ)
  | remember (memory : τ) (next : NativeProgram σ τ)
  | ask (next : Request → NativeProgram σ τ)
  | call (op : WriterOp) (next : op.Answer → NativeProgram σ τ)
  | inner (request : Request) (next : NativeProgram σ τ)
  | innerForeign (request : Request) (writer : Writer σ) (next : Writer σ → NativeProgram σ τ)

structure Reentry (σ : Type) where
  panic : Option String
  writer : Writer σ

inductive Program (σ τ : Type)
  | done (result : Except HandlerError Unit)
  | panic (message : String)
  | recall (next : τ → Program σ τ)
  | remember (memory : τ) (next : Program σ τ)
  | call (op : Op) (next : op.Answer → Program σ τ)
  | attempt (inner : Program σ τ) (next : Except HandlerError Unit → Program σ τ)
  | bridge (middleware : NativeProgram σ τ) (inner : Program σ τ)
      (next : Except HandlerError Unit → Program σ τ)
  | reenter (request : Request) (writer : Writer σ) (inner : Program σ τ) (next : Reentry σ → Program σ τ)

namespace Program

variable {σ τ : Type}

def succeed : Program σ τ := .done (.ok ())

def fail (error : HandlerError) : Program σ τ := .done (.error error)

def ofNative (handler : NativeProgram σ τ) : Program σ τ := .bridge handler succeed .done

/-- A native middleware around a handler. It fails as the last call of the handler that failed. -/
def wrapNative (middleware : NativeProgram σ τ) (handler : Program σ τ) : Program σ τ :=
  .bridge middleware handler .done

end Program

namespace NativeProgram

variable {σ τ : Type}

def passThrough : NativeProgram σ τ := .ask fun request => .inner request .done

end NativeProgram

end HttpService

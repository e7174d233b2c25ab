import HttpService.Handler.Program

/-! Chains: a handler that may fail, made into one that answers its own failures. -/

namespace HttpService

namespace Program

variable {σ τ : Type}

/-- Tells the failure on an uncommitted response: its status, its message as plain text. What goes wrong with
that is not looked at. -/
def answerFailure (error : HandlerError) : Program σ τ :=
  .call (.response .committed) fun committed =>
    if committed = true then succeed
    else
      .call (.response (.fields (.set "content-type" "text/plain; charset=utf-8"))) fun _ =>
      .call (.response (.writeHead error.answeredStatus)) fun _ =>
      .call (.response (.write (Utf8.encode error.message))) fun _ =>
      succeed

def chain (logger : Logger) (handler : Program σ τ) : Program σ τ :=
  .attempt handler fun result =>
    match result with
    | .ok () => succeed
    | .error error =>
      .call (.request .method) fun method =>
      .call (.request .uri) fun uri =>
      .call (.log logger .error s!"{Method.text method} {uri}: {error.message}") fun _ =>
      answerFailure error

def missingHandler (logger : Logger) : Program σ τ :=
  .call (.log logger .error "handler not set, use `set_handler()` to set it.") fun _ => succeed

end Program

end HttpService

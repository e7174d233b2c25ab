import HttpService.IoError
import HttpService.Message.Status
import HttpService.View.Error

/-! Why a handler fails. -/

namespace HttpService

inductive HandlerError
  | status (status : Status) (message : String)
  | io (error : IoError)
  | fields (error : FieldError)
  | unsupportedAdapter
  | other (message : String)
deriving DecidableEq

namespace HandlerError

def message : HandlerError → String
  | status code message => s!"{code.text}: {message}"
  | io error => error.message
  | fields error => error.message
  | unsupportedAdapter => "request or response is not backed by the standard transport"
  | other message => message

def answeredStatus : HandlerError → Status
  | status code _ => code
  | _ => .internalServerError

end HandlerError

end HttpService

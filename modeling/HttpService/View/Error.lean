import HttpService.Text.Quoted

/-! Why a change of header fields is refused. -/

namespace HttpService

inductive FieldError
  | readOnly
  | committed
  | unbound
  | invalidName (key : String)
  | invalidValue (key : String)
deriving DecidableEq, Repr

def FieldError.message : FieldError → String
  | readOnly => "request headers are read-only"
  | committed => "response already committed, headers can no longer change"
  | unbound => "header view is not bound"
  | invalidName key => s!"invalid header name {Quoted.quote key}"
  | invalidValue key => s!"invalid value for header {Quoted.quote key}"

end HttpService

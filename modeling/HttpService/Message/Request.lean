import HttpService.Message.Field
import HttpService.Message.Method
import HttpService.Message.Uri
import HttpService.Message.Version
import HttpService.Net.Address

/-! A whole request, as it is handed over. -/

namespace HttpService

structure Request where
  method : Method
  uri : Uri
  version : Version
  fields : Fields
  body : Bytes
  remote : Option SocketAddress
  tls : Bool
deriving DecidableEq

namespace Request

def blank : Request := ⟨.get, .root, .http11, .empty, [], none, false⟩

def host? (request : Request) : Option String :=
  match (request.fields.first? .host).bind FieldValue.text? with
  | some host => some host
  | none => request.uri.authority?.map Utf8.lossy

end Request

end HttpService

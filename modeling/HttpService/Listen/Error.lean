import HttpService.IoError
import HttpService.Net.Address
import HttpService.Text.Quoted

/-! Why a server does not start or stops. -/

namespace HttpService

inductive ServerError
  | bind (address : String) (source : IoError)
  | address (address : String)
  | tls (message : String)
  | accept (listening : Option SocketAddress) (source : IoError)
  | io (error : IoError)
deriving DecidableEq

namespace ServerError

def listeningText : Option SocketAddress → String
  | none => "None"
  | some found => s!"Some({found.text})"

def message : ServerError → String
  | bind place source => s!"failed to bind {place}: {source.message}"
  | address text => s!"invalid listen address {Quoted.quote text}"
  | tls message => s!"TLS configuration error: {message}"
  | accept listening source => s!"accept failed on {listeningText listening}: {source.message}"
  | io error => error.message

def source? : ServerError → Option IoError
  | bind _ source => some source
  | accept _ source => some source
  | _ => none

end ServerError

end HttpService

import HttpService.Listen.Error
import HttpService.Listen.Pem
import HttpService.Log

/-! Starting a server: where it listens, and what can keep it from that. -/

namespace HttpService

structure Config where
  address : String := ":8080"
  certificate : Option String := none
  key : Option String := none
  listener : Bool := false
deriving DecidableEq

inductive ListenMode
  | custom
  | tls (certificate key : String)
  | plain
deriving DecidableEq

namespace Config

def plain (address : String) : Config := { address := address }

def withTls (address certificate key : String) : Config :=
  { address := address, certificate := some certificate, key := some key }

def tlsEnabled (config : Config) : Bool := config.certificate.any (· ≠ "") && config.key.any (· ≠ "")

def listenMode (config : Config) : ListenMode × Config :=
  if config.listener then (.custom, { config with listener := false })
  else
    match config.certificate, config.key with
    | some certificate, some key => (if config.tlsEnabled then .tls certificate key else .plain, config)
    | _, _ => (.plain, config)

def listenModes (config : Config) : Nat → List ListenMode
  | 0 => []
  | times + 1 =>
    let (mode, config) := config.listenMode
    mode :: config.listenModes times

end Config

namespace ListenMode

def text : ListenMode → String
  | custom => "custom listener"
  | tls _ _ => "tls"
  | plain => "plain"

def details : ListenMode → String
  | custom => "Custom"
  | tls certificate key =>
    s!"Tls \x7b cert: {Quoted.quote certificate}, key: {Quoted.quote key} \x7d"
  | plain => "Plain"

end ListenMode

def resolve (address : String) : Except ServerError SocketAddress :=
  match SocketAddress.ofListenText? address with
  | some found => .ok found
  | none => .error (.address address)

def tlsError (files : Files) (certificate key : String) : ServerError :=
  .tls (Pem.explain files certificate key)

/-- Listens in a mode until told to stop, which it has been from the start: only what keeps it from listening is
seen. The files are read before the address is bound. -/
def ListenMode.serve (files : Files) (address : String) : ListenMode → Except ServerError Unit
  | custom => .ok ()
  | tls certificate key => .error (tlsError files certificate key)
  | plain => (resolve address).map fun _ => ()

namespace Config

def startMessage (config : Config) : String :=
  s!"starting {config.listenMode.1.text} server on {config.address}"

def start (config : Config) (logger : Logger) (files : Files) :
    Except ServerError Unit × List LogEntry :=
  (config.listenMode.1.serve files config.address, logger.log .info config.startMessage)

def startTransport (config : Config) (files : Files) : Except ServerError Unit :=
  match config.certificate, config.key with
  | some certificate, some key => .error (tlsError files certificate key)
  | _, _ => if config.listener then .ok () else (resolve config.address).map fun _ => ()

end Config

end HttpService

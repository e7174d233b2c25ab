/-! Failures of reading and writing. -/

namespace HttpService

inductive IoErrorKind
  | notFound
  | permissionDenied
  | connectionRefused
  | connectionReset
  | connectionAborted
  | networkUnreachable
  | notConnected
  | addressInUse
  | brokenPipe
  | wouldBlock
  | invalidInput
  | invalidData
  | timedOut
  | writeZero
  | interrupted
  | unexpectedEof
  | other
deriving DecidableEq, Repr

structure IoError where
  kind : IoErrorKind
  message : String
deriving DecidableEq, Repr

namespace IoErrorKind

def isTimeout (kind : IoErrorKind) : Bool := kind == wouldBlock || kind == timedOut

def isTransient (kind : IoErrorKind) : Bool :=
  kind == connectionAborted || kind == connectionReset || kind == interrupted || kind == timedOut ||
    kind == wouldBlock

end IoErrorKind

namespace IoError

def headCutShort : IoError := ⟨.unexpectedEof, "unexpected end of file"⟩

def bodyCutShort : IoError := ⟨.unexpectedEof, "failed to fill whole buffer"⟩

def nothingWritten : IoError := ⟨.writeZero, "failed to write whole buffer"⟩

end IoError

end HttpService

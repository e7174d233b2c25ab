import HttpService.Bytes

/-! Request methods: any token, with its case kept. -/

namespace HttpService

structure Method where
  token : Bytes
  wellFormed : (!token.isEmpty && token.all Ascii.isToken) = true
deriving DecidableEq

namespace Method

def ofBytes? (token : Bytes) : Option Method :=
  if wellFormed : (!token.isEmpty && token.all Ascii.isToken) = true then some ⟨token, wellFormed⟩ else none

def get : Method := ⟨Ascii.bytes "GET", by decide⟩

def head : Method := ⟨Ascii.bytes "HEAD", by decide⟩

def text (method : Method) : String := method.token.toText

theorem ofBytes?_token (method : Method) : ofBytes? method.token = some method := by
  simp [ofBytes?, method.wellFormed]

theorem ofBytes?_eq_some {token : Bytes} {method : Method} (accepted : ofBytes? token = some method) :
    method.token = token := by
  simp only [ofBytes?] at accepted
  split at accepted
  · simp only [Option.some.injEq] at accepted
    rw [← accepted]
  · simp at accepted

end Method

end HttpService

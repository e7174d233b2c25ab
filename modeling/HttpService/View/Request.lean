import HttpService.Cookie
import HttpService.Message.Request
import HttpService.View.Fields
import HttpService.View.Url

/-! The request as a handler sees it. -/

namespace HttpService

structure RequestView where
  bound : Option Request
  fields : FieldsView
  url : UrlView
  form : List (String × String)
  decoded : Bool
deriving DecidableEq

namespace RequestView

def unbound : RequestView := ⟨none, .unbound, .unbound, [], false⟩

def bind (_ : RequestView) (request : Request) (fields : FieldsView) (url : UrlView) : RequestView :=
  ⟨some request, fields, url, [], false⟩

def release (view : RequestView) : RequestView × FieldsView × UrlView :=
  (.unbound, view.fields.release, view.url.release)

def request (view : RequestView) : Request := view.bound.getD .blank

def scheme (view : RequestView) : String := if view.request.tls then "https" else "http"

def host (view : RequestView) : String := view.request.host?.getD ""

def uri (view : RequestView) : String := Utf8.lossy view.request.uri.pathAndQuery

def userAgent (view : RequestView) : String :=
  ((view.request.fields.first? .userAgent).bind FieldValue.text?).getD ""

def formType : Bytes := Ascii.bytes "application/x-www-form-urlencoded"

def isForm (request : Request) : Bool :=
  match request.fields.first? .contentType with
  | none => false
  | some value =>
    value.text?.isSome &&
      match Bytes.splitAll Cookie.semicolon value.bytes with
      | [] => false
      | media :: _ => Bytes.sameIgnoringCase (Cookie.trimBlanks media) formType

def formOf (request : Request) : List (String × String) :=
  (if isForm request then Form.decode request.body else []) ++
    match request.uri.query? with
    | none => []
    | some query => Form.decode query

def decode (view : RequestView) : RequestView :=
  if view.decoded then view else { view with form := formOf view.request, decoded := true }

def cookie? (view : RequestView) (name : String) : Option String :=
  (Cookie.lookup? view.request.fields (Utf8.encode name)).map Bytes.toText

end RequestView

inductive RequestOp
  | isTls
  | scheme
  | host
  | uri
  | version
  | contentLength
  | userAgent
  | remote
  | method
  | body
  | formValue (name : String)
  | formParams
  | cookie (name : String)
  | bound
  | fields (op : FieldsOp)
  | url (op : UrlOp)
deriving DecidableEq

namespace RequestOp

abbrev Answer : RequestOp → Type
  | isTls => Bool
  | scheme => String
  | host => String
  | uri => String
  | version => Version
  | contentLength => Nat
  | userAgent => String
  | remote => Option SocketAddress
  | method => Method
  | body => Bytes
  | formValue _ => Option String
  | formParams => List (String × String)
  | cookie _ => Option String
  | bound => Option Request
  | fields op => op.Answer
  | url op => op.Answer

def perform (view : RequestView) : (op : RequestOp) → op.Answer × RequestView
  | isTls => (view.request.tls, view)
  | scheme => (view.scheme, view)
  | host => (view.host, view)
  | uri => (view.uri, view)
  | version => (view.request.version, view)
  | contentLength => (view.request.body.length, view)
  | userAgent => (view.userAgent, view)
  | remote => (view.request.remote, view)
  | method => (view.request.method, view)
  | body => (view.request.body, view)
  | formValue name => (Form.lookup? view.decode.form name, view.decode)
  | formParams => (view.decode.form, view.decode)
  | cookie name => (view.cookie? name, view)
  | bound => (view.bound, view)
  | fields op => let (answer, changed) := op.perform view.fields; (answer, { view with fields := changed })
  | url op => let (answer, changed) := op.perform view.url; (answer, { view with url := changed })

end RequestOp

end HttpService

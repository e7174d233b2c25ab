import HttpService.Form
import HttpService.Message.Uri

/-! A view of the target of a request. -/

namespace HttpService

structure UrlView where
  uri : Option Uri
  query : List (String × String)
  decoded : Bool
deriving DecidableEq

namespace UrlView

def unbound : UrlView := ⟨none, [], false⟩

def rebind (_ : UrlView) (uri : Option Uri) : UrlView := ⟨uri, [], false⟩

def bind (view : UrlView) (uri : Uri) : UrlView := view.rebind (some uri)

def release (view : UrlView) : UrlView := view.rebind none

def path (view : UrlView) : String := (view.uri.map fun uri => Utf8.lossy uri.path).getD ""

def rawQuery (view : UrlView) : String := ((view.uri.bind Uri.query?).map Utf8.lossy).getD ""

def currentParams (view : UrlView) : List (String × String) :=
  match view.uri.bind Uri.query? with
  | none => []
  | some query => Form.decode query

def decode (view : UrlView) : UrlView :=
  if view.decoded then view else { view with query := view.currentParams, decoded := true }

end UrlView

inductive UrlOp
  | path
  | rawQuery
  | queryParam (name : String)
  | queryParams
deriving DecidableEq

namespace UrlOp

abbrev Answer : UrlOp → Type
  | path => String
  | rawQuery => String
  | queryParam _ => Option String
  | queryParams => List (String × String)

def perform (view : UrlView) : (op : UrlOp) → op.Answer × UrlView
  | path => (view.path, view)
  | rawQuery => (view.rawQuery, view)
  | queryParam name => (Form.lookup? view.decode.query name, view.decode)
  | queryParams => (view.decode.query, view.decode)

end UrlOp

end HttpService

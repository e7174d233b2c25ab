import HttpService.Script.Step

/-! The names of steps, as scripts and traces write them: `rq` is the request, `rs` the response, and `r` and `w`
are the request and the writer of a native handler. -/

namespace HttpService

def Level.name : Level → String
  | error => "error"
  | warn => "warn"
  | info => "info"
  | debug => "debug"

def FieldsOp.name : FieldsOp → String
  | get _ => "get"
  | contains _ => "contains"
  | keys => "keys"
  | size => "len"
  | isEmpty => "is_empty"
  | set _ _ => "set"
  | add _ _ => "add"
  | del _ => "del"

def UrlOp.name : UrlOp → String
  | path => "path"
  | rawQuery => "raw_query"
  | queryParam _ => "query_param"
  | queryParams => "query_params"

def RequestOp.name : RequestOp → String
  | isTls => "rq.is_tls"
  | scheme => "rq.scheme"
  | host => "rq.host"
  | uri => "rq.uri"
  | version => "rq.version"
  | contentLength => "rq.content_length"
  | userAgent => "rq.user_agent"
  | remote => "rq.remote_address"
  | method => "rq.method"
  | body => "rq.body"
  | formValue _ => "rq.form_value"
  | formParams => "rq.form_params"
  | cookie _ => "rq.cookie"
  | bound => "rq.native"
  | fields op => s!"rq.header.{op.name}"
  | url op => s!"rq.url.{op.name}"

def WriterOp.name : WriterOp → String
  | set _ _ => "w.set"
  | append _ _ => "w.append"
  | remove _ => "w.remove"
  | fields => "w.headers"
  | writeHead _ => "w.write_header"
  | write _ => "w.write"
  | committed => "w.committed"
  | flush => "w.flush"
  | sinkHead _ => "w.sink_head"
  | sinkBody _ => "w.sink_body"

def ResponseOp.name : ResponseOp → String
  | fields op => s!"rs.header.{op.name}"
  | writeHead _ => "rs.write_header"
  | write _ => "rs.write"
  | flush => "rs.flush"
  | status => "rs.status"
  | size => "rs.size"
  | committed => "rs.committed"
  | native op => op.name
  | log _ _ => "rs.log"

def RequestPart.name : RequestPart → String
  | method => "r.method"
  | uri => "r.uri"
  | path => "r.path"
  | query => "r.query"
  | version => "r.version"
  | field _ => "r.header"
  | fields => "r.headers"
  | body => "r.body"
  | remote => "r.remote_addr"
  | tls => "r.tls"
  | host => "r.host"

end HttpService

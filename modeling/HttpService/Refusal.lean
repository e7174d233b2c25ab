import HttpService.Decimal
import HttpService.IoError
import HttpService.Message.Version

/-! Why a request is refused, and the answer that says so right before the connection closes. -/

namespace HttpService

inductive Refusal
  | invalidMethod
  | invalidUrl
  | urlTooLong
  | invalidVersion
  | unsupportedVersion
  | invalidField
  | tooManyFields
  | headTooLarge
  | invalidContentLength
  | unsupportedTransferEncoding
  | bodyTooLarge
  | ioFailure
deriving DecidableEq, Repr

namespace Refusal

def status : Refusal → String
  | invalidMethod => "400 Bad Request"
  | invalidUrl => "400 Bad Request"
  | urlTooLong => "414 URI Too Long"
  | invalidVersion => "400 Bad Request"
  | unsupportedVersion => "505 HTTP Version Not Supported"
  | invalidField => "400 Bad Request"
  | tooManyFields => "431 Request Header Fields Too Large"
  | headTooLarge => "431 Request Header Fields Too Large"
  | invalidContentLength => "400 Bad Request"
  | unsupportedTransferEncoding => "501 Not Implemented"
  | bodyTooLarge => "413 Payload Too Large"
  | ioFailure => "503 Service Unavailable"

def explanation : Refusal → String
  | invalidMethod => "Invalid HTTP method"
  | invalidUrl => "Invalid URL format"
  | urlTooLong => "URL too long"
  | invalidVersion => "Invalid HTTP version"
  | unsupportedVersion => "HTTP version not supported"
  | invalidField => "Invalid header format"
  | tooManyFields => "Too many headers"
  | headTooLarge => "Request head too large"
  | invalidContentLength => "Invalid Content-Length"
  | unsupportedTransferEncoding => "Transfer-Encoding not supported"
  | bodyTooLarge => "Request body too large"
  | ioFailure => "I/O error occurred"

def code : Refusal → String
  | invalidMethod => "INVALID_METHOD"
  | invalidUrl => "INVALID_URL"
  | urlTooLong => "URL_TOO_LONG"
  | invalidVersion => "INVALID_VERSION"
  | unsupportedVersion => "UNSUPPORTED_VERSION"
  | invalidField => "INVALID_HEADER"
  | tooManyFields => "TOO_MANY_HEADERS"
  | headTooLarge => "HEAD_TOO_LARGE"
  | invalidContentLength => "INVALID_CONTENT_LENGTH"
  | unsupportedTransferEncoding => "UNSUPPORTED_TRANSFER_ENCODING"
  | bodyTooLarge => "BODY_TOO_LARGE"
  | ioFailure => "IO_ERROR"

def body (refusal : Refusal) : Bytes :=
  Ascii.bytes "\x7b\"error\":\"" ++ Ascii.bytes refusal.explanation ++ Ascii.bytes "\",\"code\":\"" ++
    Ascii.bytes refusal.code ++ Ascii.bytes "\"\x7d"

def answeredVersion (version : Version) : Bytes :=
  if version = .http10 then Ascii.bytes "HTTP/1.0 " else Ascii.bytes "HTTP/1.1 "

def answer (refusal : Refusal) (version : Version) : Bytes :=
  answeredVersion version ++ Ascii.bytes refusal.status ++ Ascii.crlf ++
    Ascii.bytes "connection: close" ++ Ascii.crlf ++
    Ascii.bytes "content-length: " ++ Decimal.toBytes refusal.body.length ++ Ascii.crlf ++
    Ascii.bytes "content-type: application/json" ++ Ascii.crlf ++ Ascii.crlf ++ refusal.body

end Refusal

/-- Why reading a request came to no result: the request is refused, the stream failed, or an access would
have left its bounds. -/
inductive ReadFailure
  | refused (refusal : Refusal)
  | io (error : IoError)
  | panicked (message : String)
deriving DecidableEq, Repr

end HttpService

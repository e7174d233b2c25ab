import HttpService.Listen.Files
import HttpService.Text.Base64
import HttpService.Text.Quoted
import HttpService.Utf8

/-! Certificate and key files: sections between a line that begins them and a line that ends them. -/

namespace HttpService

namespace Pem

inductive PemError
  | illegalStart (line : Bytes)
  | missingEnd (label : Bytes)
  | content (error : Base64.Base64Error)
deriving DecidableEq

def PemError.message : PemError → String
  | illegalStart line => s!"illegal section start: {Quoted.quote (Utf8.lossy line)}"
  | missingEnd label => s!"section end {Quoted.quote (Utf8.lossy label)} missing"
  | content error => error.message

def lines (content : Bytes) : List Bytes :=
  content.foldr (fun byte later =>
    if byte == Ascii.lf || byte == Ascii.cr then [byte] :: later
    else
      match later with
      | [] => [[byte]]
      | line :: rest => (byte :: line) :: rest) []

def dash : UInt8 := 0x2D

def beginMark : Bytes := Ascii.bytes "-----BEGIN "
def endMark : Bytes := Ascii.bytes "-----END "
def dashes : Bytes := Ascii.bytes "-----"

def isTrailing (byte : UInt8) : Bool :=
  byte == dash || byte == Ascii.lf || byte == Ascii.cr || byte == Ascii.space

/-- The label of a line that begins a section: what stands between the mark and the dashes at the end, of which
there must be five; line ends and spaces among them do not count. -/
def label (line : Bytes) : Except PemError Bytes :=
  let trailing := (line.reverse.takeWhile isTrailing).reverse
  if trailing.count dash ≠ 5 then .error (.illegalStart line)
  else
    let blanks := trailing.takeWhile fun byte => byte != dash
    let stop := line.length - trailing.length + blanks.length
    .ok ((line.take stop).drop beginMark.length)

def certificateLabel : Bytes := Ascii.bytes "CERTIFICATE"

def keyLabels : List Bytes := ["PRIVATE KEY", "RSA PRIVATE KEY", "EC PRIVATE KEY"].map Ascii.bytes

def knownLabels : List Bytes :=
  certificateLabel :: keyLabels ++
    ["PUBLIC KEY", "X509 CRL", "CERTIFICATE REQUEST", "ECHCONFIG"].map Ascii.bytes

structure Section where
  label : Bytes
  content : Bytes
deriving DecidableEq

structure Reading where
  sections : List Section
  error : Option PemError
deriving DecidableEq

/-- Reads lines. A section that has begun is `current`, and `held` are the lines of its content, the last one
first. A section that begins inside another takes over what is held. -/
def readLines (current : Option Bytes) (held : List Bytes) : List Bytes → Reading
  | [] => ⟨[], current.map .missingEnd⟩
  | line :: rest =>
    if beginMark.isPrefixOf line then
      match label line with
      | .error error => ⟨[], some error⟩
      | .ok label => readLines (some label) held rest
    else
      match current with
      | none => readLines none held rest
      | some label =>
        if !(endMark ++ label ++ dashes).isPrefixOf line then readLines (some label) (line :: held) rest
        else if !knownLabels.contains label then readLines none [] rest
        else
          match Base64.decode held.reverse.flatten with
          | .error error => ⟨[], some (.content error)⟩
          | .ok content =>
            let reading := readLines none [] rest
            { reading with sections := ⟨label, content⟩ :: reading.sections }

def read (content : Bytes) : Reading := readLines none [] (lines content)

def certificates (content : Bytes) : Except PemError (List Section) :=
  let reading := read content
  match reading.error with
  | some error => .error error
  | none => .ok (reading.sections.filter fun part => part.label = certificateLabel)

def key? (content : Bytes) : Except PemError (Option Section) :=
  let reading := read content
  match reading.sections.find? fun part => keyLabels.contains part.label with
  | some found => .ok (some found)
  | none =>
    match reading.error with
    | some error => .error error
    | none => .ok none

def unusableKey : String := "unexpected error: failed to parse private key as RSA, ECDSA, or EdDSA"

/-- Why the two files give no configuration. Their sections are read, but no cryptography is done, so that a
key is never usable. -/
def explain (files : Files) (certificatePath keyPath : String) : String :=
  match files.read certificatePath with
  | .error error => s!"{certificatePath}: {error.message}"
  | .ok content =>
    match certificates content with
    | .error error => s!"{certificatePath}: {error.message}"
    | .ok [] => s!"{certificatePath}: no certificates found"
    | .ok (_ :: _) =>
      match files.read keyPath with
      | .error error => s!"{keyPath}: {error.message}"
      | .ok content =>
        match key? content with
        | .error error => s!"{keyPath}: {error.message}"
        | .ok none => s!"{keyPath}: no private key found"
        | .ok (some _) => s!"{certificatePath}: {unusableKey}"

end Pem

end HttpService

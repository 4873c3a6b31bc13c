import CipherLake.Lib.GoStrings
import CipherLake.Lib.Percent
import CipherLake.Lib.Reader

/-! The parsed form of a request, as `net/http` hands it to a handler. Field
names are compared without regard to case, so they are kept in lower case. -/
namespace CipherLake.Http
open Lib

structure Request where
  (method host path rawQuery : Bytes)
  header : List (Bytes × Bytes)
  remoteAddr : Bytes
  contentLength : Int
  body : Answer
  deriving DecidableEq, Repr

/-- `r.Header.Values(name)`. -/
def Request.headerValues (r : Request) (name : Bytes) : List Bytes :=
  (r.header.filter fun field => field.1 = lowerASCII name).map (·.2)

/-- `r.Header.Get(name)`: the first value, or nothing. -/
def Request.headerGet (r : Request) (name : Bytes) : Bytes := ((r.headerValues name).head?).getD []

/-- `url.ParseQuery`; a parameter that cannot be decoded is dropped. -/
def parseQuery (rawQuery : Bytes) : List (Bytes × Bytes) :=
  (rawQuery.splitOn 38).filterMap fun part =>
    if part = [] ∨ 59 ∈ part then none
    else
      let (key, value) := cut part 61
      match unescape true key, unescape true (value.getD []) with
      | some key, some value => some (key, value)
      | _, _ => none

/-- `r.URL.Query()`. -/
def Request.query (r : Request) : List (Bytes × Bytes) := parseQuery r.rawQuery

/-- `r.URL.Query().Get(name)`. -/
def Request.queryGet (r : Request) (name : Bytes) : Bytes := (r.query.lookup name).getD []

/-- `r.URL.Query().Has(name)`. -/
def Request.queryHas (r : Request) (name : Bytes) : Bool := (r.query.lookup name).isSome

/-- A request as it is sent: a request line and the field lines, each value
without the blanks around it. -/
structure Wire where
  (method target : Bytes)
  fields : List (Bytes × Bytes)
  remoteAddr : Bytes
  contentLength : Int
  body : Answer
  deriving DecidableEq, Repr

/-- The fields `net/http` removes from `r.Header`: the host, the transfer
coding and, of a chunked message, its length and trailer. -/
def takenOut (chunked : Bool) (name : Bytes) : Bool :=
  name = str "host" || name = str "transfer-encoding" ||
    chunked && (name = str "content-length" || name = str "trailer")

def Wire.chunked (wire : Wire) : Bool := (wire.fields.lookup (str "transfer-encoding")).isSome

/-- `http.ReadRequest` on a well-formed request line, where the path alone can
be refused. -/
def readRequest (wire : Wire) : Option Request :=
  let (uri, rawQuery) := cut wire.target 63
  (unescape false uri).map fun path =>
    { method := wire.method
      host := (wire.fields.lookup (str "host")).getD []
      path
      rawQuery := rawQuery.getD []
      header := wire.fields.filter fun field => ¬ takenOut wire.chunked field.1
      remoteAddr := wire.remoteAddr
      contentLength := wire.contentLength
      body := wire.body }

/-- `extractClientIP`. -/
def extractClientIP (r : Request) : Bytes :=
  let xff := r.headerGet (str "X-Forwarded-For")
  if xff ≠ [] then trimSpace (cut xff 44).1
  else
    let xri := r.headerGet (str "X-Real-IP")
    if xri ≠ [] then xri
    else
      match cut r.remoteAddr.reverse 58 with
      | (_, none) => r.remoteAddr
      | (_, some address) => address.reverse

end CipherLake.Http

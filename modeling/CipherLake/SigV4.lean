import CipherLake.Http
import Mathlib.Data.List.Lex
import Mathlib.Data.List.Sort

/-! Verification of AWS signature version 4: the canonical request is derived
again from the parsed request, and its signature compared with the one sent. -/
namespace CipherLake.SigV4
open Lib Http

/-- SHA-256 and HMAC-SHA-256. -/
structure Digests where
  sha256 : Bytes → Bytes
  hmac (key message : Bytes) : Bytes
  sha256_length : ∀ message, (sha256 message).length = 32
  hmac_length : ∀ key message, (hmac key message).length = 32

/-- A parsed time: the instant in nanoseconds, and the day it falls on in the
zone it was given in, written as eight digits. -/
structure Moment where
  instant : Int
  day : Bytes
  deriving DecidableEq, Repr

/-- The clock, and the time formats of the Go library: `parseTime` takes the
compact format or else RFC 3339. -/
structure Clock where
  now : Int
  parseTime : Bytes → Option Moment
  parseDuration : Bytes → Option Int

def hexLower (s : Bytes) : Bytes :=
  s.flatMap fun c => lowerASCII [hexDigit (c.toNat / 16), hexDigit (c.toNat % 16)]

structure SigV4Params where
  (accessKey date region service : Bytes)
  signedHeaders : List Bytes
  signature : Bytes
  deriving DecidableEq, Repr

/-- `strings.Split(s, ", ")`. -/
def splitCommaSpace : Bytes → List Bytes
  | [] => [[]]
  | 44 :: 32 :: rest => [] :: splitCommaSpace rest
  | c :: rest => (splitCommaSpace rest).modifyHead (c :: ·)

/-- The last of the listed parts that starts with a label, without the label. -/
def labelled (label : Bytes) (parts : List Bytes) : Bytes :=
  parts.foldl (fun found part => if hasPrefix part label then trimPrefix part label else found) []

def parseAuthorizationHeader (auth : Bytes) : Except Bytes SigV4Params :=
  if ¬ hasPrefix auth (str "AWS4-HMAC-SHA256 ") then .error (str "invalid AWS signature version")
  else
    let parts := (splitCommaSpace (trimPrefix auth (str "AWS4-HMAC-SHA256 "))).map trimSpace
    let credential := labelled (str "Credential=") parts
    let signedHeaders := labelled (str "SignedHeaders=") parts
    let signature := labelled (str "Signature=") parts
    if credential = [] ∨ signedHeaders = [] ∨ signature = [] then
      .error (str "missing required fields in Authorization header")
    else
      match credential.splitOn 47 with
      | [accessKey, date, region, service, terminator] =>
        if terminator ≠ str "aws4_request" then
          .error (str "invalid credential terminator: " ++ terminator)
        else .ok ⟨accessKey, date, region, service, signedHeaders.splitOn 59, signature⟩
      | _ => .error (str "invalid credential format, expected accessKey/date/region/service/aws4_request")

variable (D : Digests) (clock : Clock) (r : Request)

def deriveSigningKey (secretKey date region service : Bytes) : Bytes :=
  let kDate := D.hmac (str "AWS4" ++ secretKey) date
  let kRegion := D.hmac kDate region
  let kService := D.hmac kRegion service
  D.hmac kService (str "aws4_request")

def join (separator : UInt8) (parts : List Bytes) : Bytes := [separator].intercalate parts

/-- The path is decoded once more, although it already is decoded, and then
encoded segment by segment. -/
def getCanonicalURI (path : Bytes) : Bytes :=
  let path := if path = [] then str "/" else path
  let decoded := (unescape false path).getD path
  let canonical := join 47 ((decoded.splitOn 47).map pathEscape)
  if hasPrefix canonical (str "/") then canonical else str "/" ++ canonical

def pairLe (a b : Bytes × Bytes) : Bool := if a.1 ≠ b.1 then a.1 < b.1 else a.2 ≤ b.2

def encodePair (p : Bytes × Bytes) : Bytes := p.1 ++ str "=" ++ p.2

def getCanonicalQueryString (rawQuery : Bytes) : Bytes :=
  if rawQuery = [] then []
  else
    let pairs := ((rawQuery.splitOn 38).filter (· ≠ [])).map fun part =>
      let (key, value) := cut part 61
      (queryEscape ((unescape true key).getD key),
        queryEscape ((unescape true (value.getD [])).getD (value.getD [])))
    join 38 ((pairs.insertionSort (pairLe · ·)).map encodePair)

def canonicalHeader (name : Bytes) : Bytes :=
  name ++ str ":" ++ join 44 ((r.headerValues name).map trimSpace) ++ str "\n"

def buildCanonicalRequest (method path queryString : Bytes) (signedHeaders : List Bytes) (r : Request)
    (payloadHash : Bytes) : Bytes :=
  join 10 [method, getCanonicalURI path, getCanonicalQueryString queryString,
    signedHeaders.flatMap (canonicalHeader r), join 59 signedHeaders, payloadHash]

def buildStringToSign (timestamp date region service canonicalRequest : Bytes) : Bytes :=
  let scope := date ++ str "/" ++ region ++ str "/" ++ service ++ str "/aws4_request"
  join 10 [str "AWS4-HMAC-SHA256", timestamp, scope, hexLower (D.sha256 canonicalRequest)]

def computeSignature (signingKey stringToSign : Bytes) : Bytes :=
  hexLower (D.hmac signingKey stringToSign)

def getPayloadHash : Bytes :=
  let v := r.headerGet (str "x-amz-content-sha256")
  if v ≠ [] then v
  else
    let v := r.queryGet (str "X-Amz-Content-SHA256")
    if v ≠ [] then v else hexLower (D.sha256 [])

/-- Fifteen minutes. -/
def window : Int := 15 * 60 * 10 ^ 9

def validateTimestamp (timestamp date : Bytes) : Except Bytes Unit :=
  match clock.parseTime timestamp with
  | none => .error (str "invalid timestamp format: " ++ timestamp)
  | some t =>
    if clock.now - t.instant < -window ∨ clock.now - t.instant > window then
      .error (str "request timestamp too far from current time")
    else if t.day ≠ date then
      .error (str "date in credential does not match timestamp date")
    else .ok ()

/-- The timestamp a signed request was made at: `x-amz-date`, else `Date`. -/
def requestTimestamp : Bytes :=
  let timestamp := r.headerGet (str "x-amz-date")
  if timestamp = [] then r.headerGet (str "Date") else timestamp

def verifySigV4Header (secretKey : Bytes) : Except Bytes Unit :=
  match parseAuthorizationHeader (r.headerGet (str "Authorization")) with
  | .error e => .error e
  | .ok params =>
    let timestamp := requestTimestamp r
    if timestamp = [] then .error (str "missing x-amz-date or Date header")
    else
      match validateTimestamp clock timestamp params.date with
      | .error e => .error e
      | .ok () =>
        let canonicalRequest := buildCanonicalRequest r.method r.path r.rawQuery params.signedHeaders r
          (getPayloadHash D r)
        let stringToSign := buildStringToSign D timestamp params.date params.region params.service canonicalRequest
        let signingKey := deriveSigningKey D secretKey params.date params.region params.service
        if computeSignature D signingKey stringToSign ≠ params.signature then .error (str "signature mismatch")
        else .ok ()

/-! ### Presigned URLs -/

def validatePresignedExpiry (timestamp expiresStr : Bytes) : Except Bytes Unit :=
  match clock.parseTime timestamp with
  | none => .error (str "invalid timestamp format: " ++ timestamp)
  | some t =>
    match clock.parseDuration (expiresStr ++ str "s") with
    | none => .error (str "invalid X-Amz-Expires: " ++ expiresStr)
    | some expires =>
      if clock.now > t.instant + expires then .error (str "presigned URL has expired") else .ok ()

def filterQueryParams (query : List (Bytes × Bytes)) (excluded : List Bytes) : Bytes :=
  let pairs := (query.filter fun p => p.1 ∉ excluded).map fun p =>
    queryEscape p.1 ++ str "=" ++ queryEscape p.2
  join 38 (pairs.insertionSort (· ≤ ·))

def verifySigV4PresignedURL (secretKey : Bytes) : Except Bytes Unit :=
  let credential := r.queryGet (str "X-Amz-Credential")
  if credential = [] then .error (str "missing X-Amz-Credential in presigned URL")
  else
    match credential.splitOn 47 with
    | [_, date, region, service, terminator] =>
      let signedHeadersStr := r.queryGet (str "X-Amz-SignedHeaders")
      let signature := r.queryGet (str "X-Amz-Signature")
      let timestamp := r.queryGet (str "X-Amz-Date")
      let expiresStr := r.queryGet (str "X-Amz-Expires")
      if terminator ≠ str "aws4_request" then .error (str "invalid credential terminator: " ++ terminator)
      else if signedHeadersStr = [] then .error (str "missing X-Amz-SignedHeaders in presigned URL")
      else if signature = [] then .error (str "missing X-Amz-Signature in presigned URL")
      else if timestamp = [] then .error (str "missing X-Amz-Date in presigned URL")
      else
        match if expiresStr = [] then .ok () else validatePresignedExpiry clock timestamp expiresStr with
        | .error e => .error e
        | .ok () =>
          match validateTimestamp clock timestamp date with
          | .error e => .error e
          | .ok () =>
            let canonicalQueryString := getCanonicalQueryString
              (filterQueryParams r.query [str "X-Amz-Signature"])
            let canonicalRequest := buildCanonicalRequest r.method r.path canonicalQueryString
              (signedHeadersStr.splitOn 59) r (getPayloadHash D r)
            let stringToSign := buildStringToSign D timestamp date region service canonicalRequest
            let signingKey := deriveSigningKey D secretKey date region service
            if computeSignature D signingKey stringToSign ≠ signature then
              .error (str "presigned URL signature mismatch")
            else .ok ()
    | _ => .error (str "invalid X-Amz-Credential format")

end CipherLake.SigV4

import CipherLake.Routing
import CipherLake.SigV4Canonical

/-! Which correctly signed requests the gateway accepts. The client side is
written down from the signing rules, apart from the code that verifies: what a
client signs is fixed by the request it means to send, and what the verifier
compares it with is derived from what `net/http` made of that request. -/
namespace CipherLake.SigV4Completeness
open Lib Http SigV4 Routing List

/-! ### The client -/

def uriEncode (s : Bytes) : Bytes := escapeWith unreserved s

/-- A path is encoded once, with its slashes left bare. -/
def pathEncode (s : Bytes) : Bytes := escapeWith (fun c => unreserved c || c = 47) s

/-- Runs of spaces become one space. -/
def squeeze : Bytes → Bytes
  | [] => []
  | c :: rest => if c = 32 ∧ rest.head? = some 32 then squeeze rest else c :: squeeze rest

def trimAll (value : Bytes) : Bytes :=
  squeeze ((value.dropWhile (· = 32)).reverse.dropWhile (· = 32)).reverse

def tokenByte (c : UInt8) : Bool :=
  graphic c && c ∉ str "\"(),/:;<=>?@[\\]\x7b\x7d" && ¬ (65 ≤ c ∧ c ≤ 90)

/-- The name of a header field, in lower case. -/
def fieldName (name : Bytes) : Bool := name ≠ [] && name.all tokenByte

inductive Address where
  | pathStyle (host bucket key : Bytes)
  | virtualHosted (bucket authority key : Bytes)
  deriving DecidableEq, Repr

def Address.host : Address → Bytes
  | .pathStyle host _ _ => host
  | .virtualHosted bucket authority _ => bucket ++ str "." ++ authority

def Address.path : Address → Bytes
  | .pathStyle _ bucket key => str "/" ++ bucket ++ str "/" ++ key
  | .virtualHosted _ _ key => str "/" ++ key

/-- A request a client signs: `fields` are the header fields besides `Host` and
`Authorization`, `signed` the names it signs in ascending order, and a query
parameter without a value is sent without an equals sign. -/
structure Signing where
  method : Bytes
  address : Address
  query : List (Bytes × Option Bytes)
  fields : List (Bytes × Bytes)
  signed : List Bytes
  (payloadHash timestamp accessKey date region service remoteAddr : Bytes)
  contentLength : Int
  body : Answer
  hostText : address.host.all graphic = true
  queryNamed : ∀ p ∈ query, p.1 ≠ []
  fieldsNamed : ∀ field ∈ fields, fieldName field.1 = true ∧ field.1 ≠ str "host" ∧
    field.1 ≠ str "authorization"
  fieldsText : ∀ field ∈ fields, 10 ∉ field.2
  lengthOnce : (fields.filter fun field => field.1 = str "content-length").length ≤ 1
  dated : fields.lookup (str "x-amz-date") = some timestamp ∧ timestamp ≠ []
  signsHostAndDate : str "host" ∈ signed ∧ str "x-amz-date" ∈ signed
  signsSent : ∀ name ∈ signed, name = str "host" ∨ name ∈ fields.map (·.1)
  ascending : signed.Pairwise (· < ·)
  scopeText : ∀ part ∈ [accessKey, date, region, service], 44 ∉ part ∧ 47 ∉ part

namespace Signing

variable (D : Digests) (secretKey : Bytes) (c : Signing)

/-- The values of one field, in the order they are sent in. -/
def values (name : Bytes) : List Bytes :=
  if name = str "host" then [c.address.host]
  else (c.fields.filter fun field => field.1 = name).map (·.2)

def canonicalQuery : Bytes :=
  let pairs := c.query.map fun p => (uriEncode p.1, uriEncode (p.2.getD []))
  join 38 ((pairs.insertionSort (pairLe · ·)).map fun p => p.1 ++ str "=" ++ p.2)

def canonicalHeaders : Bytes :=
  c.signed.flatMap fun name => name ++ str ":" ++ join 44 ((c.values name).map trimAll) ++ str "\n"

def canonicalRequest : Bytes :=
  join 10 [c.method, pathEncode c.address.path, c.canonicalQuery, c.canonicalHeaders, join 59 c.signed,
    c.payloadHash]

def scope : Bytes := join 47 [c.date, c.region, c.service, str "aws4_request"]

/-- The signature a client gives a canonical request. -/
def sign (canonical : Bytes) : Bytes :=
  let key := D.hmac (D.hmac (D.hmac (D.hmac (str "AWS4" ++ secretKey) c.date) c.region) c.service)
    (str "aws4_request")
  hexLower (D.hmac key (join 10 [str "AWS4-HMAC-SHA256", c.timestamp, c.scope, hexLower (D.sha256 canonical)]))

def authorization : Bytes :=
  str "AWS4-HMAC-SHA256 Credential=" ++ c.accessKey ++ str "/" ++ c.scope ++ str ", SignedHeaders=" ++
    join 59 c.signed ++ str ", Signature=" ++ c.sign D secretKey c.canonicalRequest

def parameter : Bytes × Option Bytes → Bytes
  | (name, none) => uriEncode name
  | (name, some value) => uriEncode name ++ str "=" ++ uriEncode value

/-- The request on the wire. -/
def wire : Wire where
  method := c.method
  target := pathEncode c.address.path ++
    if c.query = [] then [] else str "?" ++ join 38 (c.query.map parameter)
  fields := (str "host", c.address.host) :: (str "authorization", c.authorization D secretKey) :: c.fields
  remoteAddr := c.remoteAddr
  contentLength := c.contentLength
  body := c.body

end Signing

/-! ### What the gateway makes of it -/

/-- A request is read, its path rewritten if the host names a bucket, and its
signature verified. -/
def verify (D : Digests) (clock : Clock) (domains secretKey : Bytes) (wire : Wire) : Except Bytes Unit :=
  match readRequest wire with
  | none => .error (str "400 Bad Request")
  | some r => verifySigV4Header D clock (rewriteVirtualHosted domains r) secretKey

/-- The first value of a field is what a lookup of its name finds. -/
private theorem head_values (fields : List (Bytes × Bytes)) (name : Bytes) :
    ((fields.filter fun field => field.1 = name).map (·.2)).head? = fields.lookup name := by
  induction fields with
  | nil => rfl
  | cons field fields ih =>
    obtain ⟨key, -⟩ := field
    by_cases same : key = name
    · subst same
      simp
    · have other : (name == key) = false := by simpa using Ne.symm same
      rw [filter_cons_of_neg (by simpa using same), ih, lookup_cons, other]

namespace Signing

variable {D : Digests} {secretKey : Bytes} {c : Signing} {b : UInt8} {name s : Bytes}

variable (c) in
def chunked : Bool := (c.fields.lookup (str "transfer-encoding")).isSome

variable (D secretKey c) in
/-- What `net/http` hands over. -/
def parsed : Request where
  method := c.method
  host := c.address.host
  path := c.address.path
  rawQuery := join 38 (c.query.map parameter)
  header := ((str "authorization", c.authorization D secretKey) :: c.fields).filter fun field =>
    ¬ takenOut c.chunked field.1
  remoteAddr := c.remoteAddr
  contentLength := c.contentLength
  body := c.body

private theorem question_notMem_path : 63 ∉ pathEncode c.address.path := by
  intro held
  have spelled := mem_escapeWith held
  revert spelled
  decide

theorem read_wire : readRequest (c.wire D secretKey) = some (c.parsed D secretKey) := by
  have decoded : unescape false (pathEncode c.address.path) = some c.address.path :=
    unescape_escapeWith (by decide) (by simp) _
  have target : cut (c.wire D secretKey).target 63 = (pathEncode c.address.path,
      if c.query = [] then none else some (join 38 (c.query.map parameter))) := by
    unfold wire
    by_cases bare : c.query = []
    · simp [bare, cut_of_notMem question_notMem_path]
    · rw [if_neg bare, if_neg bare]
      exact cut_append question_notMem_path _
  have rawQuery : ((if c.query = [] then none else some (join 38 (c.query.map parameter)) : Option Bytes).getD []) =
      join 38 (c.query.map parameter) := by
    by_cases bare : c.query = []
    · simp [bare, join]
    · simp [bare]
  unfold readRequest
  rw [target]
  simp only [decoded, Option.map_some, rawQuery]
  rfl

/-! ### The authorization header is read back -/

private theorem splitCommaSpace_cons (plain : b ≠ 44) (rest : Bytes) :
    splitCommaSpace (b :: rest) = (splitCommaSpace rest).modifyHead (b :: ·) := by
  rcases rest with - | ⟨_, rest⟩ <;> simp [splitCommaSpace, plain]

private theorem splitCommaSpace_append {a : Bytes} (plain : 44 ∉ a) (b : Bytes) :
    splitCommaSpace (a ++ str ", " ++ b) = a :: splitCommaSpace b := by
  induction a with
  | nil => rfl
  | cons d a ih =>
    rw [mem_cons, not_or] at plain
    rw [cons_append, cons_append, splitCommaSpace_cons (Ne.symm plain.1), ih plain.2]
    rfl

private theorem splitCommaSpace_plain {a : Bytes} (plain : 44 ∉ a) : splitCommaSpace a = [a] := by
  induction a with
  | nil => rfl
  | cons d a ih =>
    rw [mem_cons, not_or] at plain
    rw [splitCommaSpace_cons (Ne.symm plain.1), ih plain.2]
    rfl

private theorem hexLower_plain (s : Bytes) : ∀ b ∈ hexLower s, graphic b = true ∧ b ≠ 44 := by
  intro b held
  obtain ⟨d, -, written⟩ := mem_flatMap.mp held
  have bound := d.toNat_lt
  have digit : ∀ n < 16, graphic (lowerASCII [hexDigit n]).head! = true ∧ (lowerASCII [hexDigit n]).head! ≠ 44 := by
    decide
  simp only [lowerASCII, map_cons, map_nil, mem_cons, not_mem_nil, or_false] at written
  rcases written with rfl | rfl <;> exact digit _ (by omega)

private theorem signed_plain (listed : name ∈ c.signed) : fieldName name = true := by
  rcases c.signsSent name listed with rfl | sent
  · decide
  · obtain ⟨field, held, rfl⟩ := mem_map.mp sent
    exact (c.fieldsNamed field held).1

private theorem byte_of_signed (listed : name ∈ c.signed) (held : b ∈ name) : tokenByte b = true := by
  have named := signed_plain listed
  simp only [fieldName, Bool.and_eq_true, all_eq_true] at named
  exact named.2 b held

private theorem tokenByte_ne {d : UInt8} (token : tokenByte b = true) (separator : tokenByte d = false) : b ≠ d := by
  rintro rfl
  simp [token] at separator

private theorem signed_split : (join 59 c.signed).splitOn 59 = c.signed := by
  apply splitOn_intercalate
  · intro name listed semicolon
    exact tokenByte_ne (byte_of_signed listed semicolon) (by decide) rfl
  · exact ne_nil_of_mem c.signsHostAndDate.1

/-- The list of signed names has no comma, is not empty and ends visibly. -/
private theorem signed_text : 44 ∉ join 59 c.signed ∧ ∃ b, (join 59 c.signed).getLast? = some b ∧ graphic b = true := by
  have spelled : ∀ b ∈ join 59 c.signed, graphic b = true ∧ b ≠ 44 := by
    intro b held
    rcases mem_join held with rfl | ⟨_, listed, inName⟩
    · decide
    · have token := byte_of_signed listed inName
      refine ⟨?_, tokenByte_ne token (by decide)⟩
      simp only [tokenByte, Bool.and_eq_true] at token
      exact token.1.1
  have some_byte : join 59 c.signed ≠ [] := by
    apply ne_nil_of_mem (a := 104)
    exact mem_join_of_mem c.signsHostAndDate.1 (by decide)
  refine ⟨fun comma => (spelled 44 comma).2 rfl, (join 59 c.signed).getLast some_byte,
    List.getLast?_eq_some_getLast some_byte, ?_⟩
  exact (spelled _ (getLast_mem some_byte)).1

private theorem credential_split : (c.accessKey ++ str "/" ++ c.scope).splitOn 47 =
      [c.accessKey, c.date, c.region, c.service, str "aws4_request"] := by
  have whole : c.accessKey ++ str "/" ++ c.scope =
      [47].intercalate [c.accessKey, c.date, c.region, c.service, str "aws4_request"] := by
    simp [scope, join, str]
  rw [whole]
  apply splitOn_intercalate
  · intro part listed
    rcases mem_append.mp (show part ∈ [c.accessKey, c.date, c.region, c.service] ++ [str "aws4_request"] from
      listed) with inScope | last
    · exact (c.scopeText part inScope).2
    · rw [mem_singleton.mp last]
      decide
  · exact cons_ne_nil _ _

variable (D secretKey) in
private theorem sign_text (canonical : Bytes) : 44 ∉ c.sign D secretKey canonical ∧
    c.sign D secretKey canonical ≠ [] ∧ ∃ b, (c.sign D secretKey canonical).getLast? = some b ∧ graphic b = true := by
  have some_byte : c.sign D secretKey canonical ≠ [] := by
    intro empty
    have length := congrArg length empty
    simp [sign, hexLower, lowerASCII, length_flatMap, D.hmac_length] at length
  refine ⟨fun comma => (hexLower_plain _ 44 comma).2 rfl, some_byte, _, List.getLast?_eq_some_getLast some_byte, ?_⟩
  exact (hexLower_plain _ _ (getLast_mem some_byte)).1

/-- A labelled part keeps its last byte and is not trimmed. -/
private theorem trimSpace_labelled {label value : Bytes} (first : UInt8) {last : UInt8}
    (starts : label.head? = some first) (firstVisible : graphic first = true)
    (ends : value.getLast? = some last) (lastVisible : graphic last = true) :
    trimSpace (label ++ value) = label ++ value := by
  have first_kept : (label ++ value).head? = some first := by simp [starts]
  have last_kept : (label ++ value).getLast? = some last := by simp [List.getLast?_append, ends]
  exact trimSpace_of_graphic first_kept last_kept firstVisible lastVisible

theorem parse_authorization : parseAuthorizationHeader (c.authorization D secretKey) =
    .ok ⟨c.accessKey, c.date, c.region, c.service, c.signed, c.sign D secretKey c.canonicalRequest⟩ := by
  obtain ⟨signedComma, b, signedEnds, signedVisible⟩ := signed_text (c := c)
  obtain ⟨signComma, signPresent, d, signEnds, signVisible⟩ :=
    sign_text D secretKey (c := c) c.canonicalRequest
  have credentialEnds : (c.accessKey ++ str "/" ++ c.scope).getLast? = some 116 := by
    have ending : c.accessKey ++ str "/" ++ c.scope = c.accessKey ++ str "/" ++ c.date ++ str "/" ++ c.region ++
        str "/" ++ c.service ++ str "/" ++ str "aws4_request" := by
      simp [scope, join, str]
    rw [ending, List.getLast?_append]
    rfl
  have credentialComma : 44 ∉ c.accessKey ++ str "/" ++ c.scope := by
    have plain := fun part listed => (c.scopeText part listed).1
    simp [scope, join, str, plain]
  have whole : c.authorization D secretKey = str "AWS4-HMAC-SHA256 " ++
      (str "Credential=" ++ (c.accessKey ++ str "/" ++ c.scope) ++ str ", " ++
        (str "SignedHeaders=" ++ join 59 c.signed ++ str ", " ++
          (str "Signature=" ++ c.sign D secretKey c.canonicalRequest))) := by
    have first : str "AWS4-HMAC-SHA256 Credential=" = str "AWS4-HMAC-SHA256 " ++ str "Credential=" := by rfl
    have second : str ", SignedHeaders=" = str ", " ++ str "SignedHeaders=" := by rfl
    have third : str ", Signature=" = str ", " ++ str "Signature=" := by rfl
    simp [authorization, first, second, third]
  have plain {label text : Bytes} (first : 44 ∉ label) (second : 44 ∉ text) : 44 ∉ label ++ text := by
    simp [first, second]
  have signedPresent : join 59 c.signed ≠ [] := by
    intro empty
    simp [empty] at signedEnds
  have parts : (splitCommaSpace (trimPrefix (c.authorization D secretKey) (str "AWS4-HMAC-SHA256 "))).map trimSpace =
      [str "Credential=" ++ (c.accessKey ++ str "/" ++ c.scope), str "SignedHeaders=" ++ join 59 c.signed,
        str "Signature=" ++ c.sign D secretKey c.canonicalRequest] := by
    rw [whole, trimPrefix_append, splitCommaSpace_append (plain (by decide) credentialComma),
      splitCommaSpace_append (plain (by decide) signedComma), splitCommaSpace_plain (plain (by decide) signComma)]
    simp only [map_cons, map_nil]
    rw [trimSpace_labelled 67 rfl rfl credentialEnds rfl, trimSpace_labelled 83 rfl rfl signedEnds signedVisible,
      trimSpace_labelled 83 rfl rfl signEnds signVisible]
  have apart {credential signed signature : Bytes} {parts : List Bytes} (three : parts =
      [str "Credential=" ++ credential, str "SignedHeaders=" ++ signed, str "Signature=" ++ signature]) :
      labelled (str "Credential=") parts = credential ∧ labelled (str "SignedHeaders=") parts = signed ∧
        labelled (str "Signature=") parts = signature := by
    subst three
    exact ⟨rfl, rfl, rfl⟩
  have begins : hasPrefix (c.authorization D secretKey) (str "AWS4-HMAC-SHA256 ") = true := by
    rw [whole, hasPrefix_append]
  have credentialPresent : c.accessKey ++ str "/" ++ c.scope ≠ [] := by simp [str]
  unfold parseAuthorizationHeader
  rw [if_neg (by simp [begins])]
  simp only [apart parts, credentialPresent, signedPresent, signPresent, or_self, if_false,
    credential_split, signed_split]
  rfl

/-! ### The fields the verifier finds -/

theorem headerValues_taken (lower : lowerASCII name = name) (taken : takenOut c.chunked name = true) :
    (c.parsed D secretKey).headerValues name = [] := by
  unfold Request.headerValues parsed
  rw [lower, map_eq_nil_iff, filter_eq_nil_iff]
  intro field held same
  have kept := (mem_filter.mp held).2
  simp only [decide_eq_true_eq] at same kept
  exact kept (same ▸ taken)

theorem headerValues_kept (lower : lowerASCII name = name) (kept : takenOut c.chunked name = false)
    (other : name ≠ str "authorization") :
    (c.parsed D secretKey).headerValues name = (c.fields.filter fun field => field.1 = name).map (·.2) := by
  unfold Request.headerValues parsed
  rw [lower, filter_filter]
  have same : ∀ fields : List (Bytes × Bytes),
      (fields.filter fun field => decide (field.1 = name) && decide (¬ takenOut c.chunked field.1 = true)) =
        fields.filter fun field => field.1 = name := by
    intro fields
    apply filter_congr
    intro field _
    by_cases found : field.1 = name <;> simp [found, kept]
  rw [same, filter_cons_of_neg (by simpa using Ne.symm other)]

private theorem headerGet_kept (key : Bytes) (lower : lowerASCII name = key) (again : lowerASCII key = key)
    (kept : takenOut c.chunked key = false) (other : key ≠ str "authorization") :
    (c.parsed D secretKey).headerGet name = (c.fields.lookup key).getD [] := by
  have spelled : (c.parsed D secretKey).headerValues name = (c.parsed D secretKey).headerValues key := by
    unfold Request.headerValues
    rw [lower, again]
  rw [Request.headerGet, spelled, headerValues_kept again kept other, head_values]

private theorem takenOut_other (name : Bytes) (chunked : Bool) (other : name ∉ [str "host",
    str "transfer-encoding", str "content-length", str "trailer"]) : takenOut chunked name = false := by
  simp only [mem_cons, not_mem_nil, or_false, not_or] at other
  simp [takenOut, other]

theorem authorization_found : (c.parsed D secretKey).headerGet (str "Authorization") = c.authorization D secretKey := by
  have lower : lowerASCII (str "Authorization") = str "authorization" := by decide
  have kept := takenOut_other (str "authorization") c.chunked (by decide)
  unfold Request.headerGet Request.headerValues parsed
  simp [lower, kept]

theorem timestamp_found : requestTimestamp (c.parsed D secretKey) = c.timestamp := by
  have found : (c.parsed D secretKey).headerGet (str "x-amz-date") = c.timestamp := by
    rw [headerGet_kept (str "x-amz-date") (by decide) (by decide) (takenOut_other _ _ (by decide)) (by decide),
      c.dated.1]
    rfl
  unfold requestTimestamp
  rw [found]
  exact if_neg c.dated.2

variable (D secretKey c) in
/-- The canonical request the gateway derives. -/
def derived (domains : Bytes) : Bytes :=
  let r := rewriteVirtualHosted domains (c.parsed D secretKey)
  buildCanonicalRequest r.method r.path r.rawQuery c.signed r (getPayloadHash D r)

/-! ### The path -/

/-- The path the verifier encodes is decoded twice. It comes out as the client
wrote it if the second decoding changes nothing and no byte is encoded by one
side alone. -/
theorem getCanonicalURI_eq_iff (rest : Bytes) : getCanonicalURI (47 :: rest) = pathEncode (47 :: rest) ↔
      (37 ∉ 47 :: rest ∨ unescape false (47 :: rest) = none) ∧ ∀ b ∈ 47 :: rest, b ∉ str "$&+:=@" := by
  have spelled : escapeWith slashBare (47 :: rest) = pathEncode (47 :: rest) ↔
      ∀ b ∈ 47 :: rest, b ∉ str "$&+:=@" := by
    rw [pathEncode, escapeWith_eq_iff (by decide) (by decide)]
    have reserved : ∀ b ∈ str "$&+:=@", unreserved b = false ∧ b ≠ 47 := by decide
    refine forall₂_congr fun b _ => ?_
    simp only [slashBare, pathBare]
    by_cases coded : b ∈ str "$&+:=@"
    · simp [coded, reserved b coded]
    · simp [coded]
  rw [getCanonicalURI_rooted]
  cases decoded : unescape false (47 :: rest) with
  | none => simpa [decoded] using spelled
  | some path =>
    simp only [Option.getD_some, reduceCtorEq, or_false]
    rw [← unescape_eq_self_iff decoded]
    constructor
    · intro same
      have undone := congrArg (unescape false) same
      rw [unescape_escapeWith (by decide) (by simp), pathEncode,
        unescape_escapeWith (by decide) (by simp), Option.some.injEq] at undone
      subst undone
      exact ⟨rfl, spelled.mp same⟩
    · rintro ⟨rfl, plain⟩
      exact spelled.mpr plain

/-! ### The query -/

private theorem separator_notMem_uriEncode (separator : unreserved b = false) (isPercent : b ≠ 37) (s : Bytes) :
    b ∉ uriEncode s := by
  intro held
  rcases mem_escapeWith held with bare | percent | bare
  · simp [separator] at bare
  · exact isPercent percent
  · simp [separator] at bare

private theorem notMem_parameter (separator : unreserved b = false) (isPercent : b ≠ 37) (isEquals : b ≠ 61)
    (p : Bytes × Option Bytes) : b ∉ parameter p := by
  obtain ⟨name, - | -⟩ := p
  · exact separator_notMem_uriEncode separator isPercent name
  · simp [parameter, separator_notMem_uriEncode separator isPercent, str, isEquals]

private theorem cut_parameter (p : Bytes × Option Bytes) :
    cut (parameter p) 61 = (uriEncode p.1, p.2.map uriEncode) := by
  have plain := separator_notMem_uriEncode (b := 61) (by decide) (by decide) p.1
  obtain ⟨name, - | value⟩ := p
  · exact cut_of_notMem plain
  · have whole : parameter (name, some value) = uriEncode name ++ 61 :: uriEncode value := by
      simp [parameter, str]
    rw [whole]
    exact cut_append plain _

private theorem parameter_ne_nil {p : Bytes × Option Bytes} (named : p.1 ≠ []) : parameter p ≠ [] := by
  obtain ⟨name, value⟩ := p
  have written : uriEncode name ≠ [] := by
    obtain ⟨_, _, rfl⟩ := exists_cons_of_ne_nil named
    unfold uriEncode escapeWith encodeByte percent
    rw [flatMap_cons]
    split <;> simp
  cases value with
  | none => exact written
  | some value => simp [parameter, written]

private theorem unescape_uriEncode (s : Bytes) : unescape true (uriEncode s) = some s :=
  unescape_escapeWith (by decide) (by decide) s

private theorem unescape_value (value : Option Bytes) :
    unescape true ((value.map uriEncode).getD []) = some (value.getD []) := by
  cases value with
  | none => rfl
  | some value => exact unescape_uriEncode value

private theorem query_split (some_query : c.query ≠ []) :
    (join 38 (c.query.map parameter)).splitOn 38 = c.query.map parameter := by
  apply splitOn_intercalate
  · intro part listed
    obtain ⟨p, -, rfl⟩ := mem_map.mp listed
    exact notMem_parameter (by decide) (by decide) (by decide) p
  · simpa using some_query

/-- The query is parsed back. -/
theorem parseQuery_wire : parseQuery (join 38 (c.query.map parameter)) = c.query.map fun p => (p.1, p.2.getD []) := by
  by_cases bare : c.query = []
  · rw [bare]
    rfl
  unfold parseQuery
  rw [query_split bare, filterMap_map, ← filterMap_eq_map]
  apply filterMap_congr
  intro p listed
  have semicolon := notMem_parameter (b := 59) (by decide) (by decide) (by decide) p
  simp [parameter_ne_nil (c.queryNamed p listed), semicolon, cut_parameter, unescape_uriEncode, unescape_value]

theorem getCanonicalQueryString_wire : getCanonicalQueryString (join 38 (c.query.map parameter)) =
    join 38 (((c.query.map fun p => (queryEscape p.1, queryEscape (p.2.getD []))).insertionSort
      (pairLe · ·)).map encodePair) := by
  by_cases bare : c.query = []
  · rw [bare]
    rfl
  have some_byte : join 38 (c.query.map parameter) ≠ [] := by
    obtain ⟨p, rest, listed⟩ := exists_cons_of_ne_nil bare
    have named := parameter_ne_nil (c.queryNamed p (by simp [listed]))
    obtain ⟨b, text, written⟩ := exists_cons_of_ne_nil named
    have sent : parameter p ∈ c.query.map parameter := by simp [listed]
    have first : b ∈ parameter p := by simp [written]
    exact ne_nil_of_mem (mem_join_of_mem sent first)
  have kept : (c.query.map parameter).filter (· ≠ []) = c.query.map parameter := by
    rw [filter_eq_self]
    intro part listed
    obtain ⟨p, held, rfl⟩ := mem_map.mp listed
    simpa using parameter_ne_nil (c.queryNamed p held)
  unfold getCanonicalQueryString
  rw [if_neg some_byte, query_split bare, kept]
  simp [Function.comp_def, cut_parameter, unescape_uriEncode, unescape_value]

private theorem mem_canonicalQuery (held : b ∈ c.canonicalQuery) : b = 38 ∨ b = 61 ∨ b = 37 ∨ unreserved b = true := by
  rcases mem_join held with isSep | ⟨_, listed, inPart⟩
  · exact .inl isSep
  obtain ⟨_, sorted, rfl⟩ := mem_map.mp listed
  obtain ⟨_, -, rfl⟩ := mem_map.mp ((mem_insertionSort _).mp sorted)
  simp only [mem_append] at inPart
  rcases inPart with (inName | isEquals) | inValue
  · rcases mem_escapeWith inName with bare | rest
    · exact .inr (.inr (.inr bare))
    · exact .inr (.inr rest)
  · exact .inr (.inl (by simpa [str] using isEquals))
  · rcases mem_escapeWith inValue with bare | rest
    · exact .inr (.inr (.inr bare))
    · exact .inr (.inr rest)

/-- A space is sent as `%20`, which the verifier turns into a `+`. -/
theorem getCanonicalQueryString_eq_iff :
    getCanonicalQueryString (join 38 (c.query.map parameter)) = c.canonicalQuery ↔
      ∀ p ∈ c.query, 32 ∉ p.1 ∧ 32 ∉ p.2.getD [] := by
  rw [getCanonicalQueryString_wire]
  constructor
  · intro same p listed
    have plus : ∀ b ∈ encodePair (queryEscape p.1, queryEscape (p.2.getD [])), b ∈ c.canonicalQuery := by
      intro b held
      rw [← same]
      refine mem_join_of_mem (mem_map_of_mem ((mem_insertionSort _).mpr ?_)) held
      exact mem_map_of_mem (f := fun p : Bytes × Option Bytes => (queryEscape p.1, queryEscape (p.2.getD []))) listed
    have noPlus : 43 ∉ encodePair (queryEscape p.1, queryEscape (p.2.getD [])) := by
      intro held
      have spelled := mem_canonicalQuery (plus 43 held)
      revert spelled
      decide
    simp only [encodePair, mem_append, not_or] at noPlus
    exact ⟨fun spaced => noPlus.1.1 (plus_mem_queryEscape spaced), fun spaced => noPlus.2 (plus_mem_queryEscape spaced)⟩
  · intro plain
    have pairs : c.query.map (fun p => (queryEscape p.1, queryEscape (p.2.getD []))) =
        c.query.map fun p => (uriEncode p.1, uriEncode (p.2.getD [])) := by
      apply map_congr_left
      intro p listed
      rw [queryEscape_eq (plain p listed).1, queryEscape_eq (plain p listed).2]
      rfl
    rw [pairs]
    rfl

/-! ### The payload hash -/

variable (D c) in
/-- The payload hash a request declares: in its header, else in its query, else
that of an empty payload. -/
def declaredHash : Bytes :=
  let inHeader := (c.fields.lookup (str "x-amz-content-sha256")).getD []
  if inHeader ≠ [] then inHeader
  else
    let inQuery := ((c.query.lookup (str "X-Amz-Content-SHA256")).getD none).getD []
    if inQuery ≠ [] then inQuery else hexLower (D.sha256 [])

private theorem lookup_query (query : List (Bytes × Option Bytes)) (name : Bytes) :
    ((query.map fun p => (p.1, p.2.getD [])).lookup name).getD [] = ((query.lookup name).getD none).getD [] := by
  induction query with
  | nil => rfl
  | cons p query ih =>
    obtain ⟨key, -⟩ := p
    simp only [map_cons, lookup_cons]
    cases name == key with
    | true => rfl
    | false => exact ih

theorem getPayloadHash_wire : getPayloadHash D (c.parsed D secretKey) = c.declaredHash D := by
  have inHeader : (c.parsed D secretKey).headerGet (str "x-amz-content-sha256") =
      (c.fields.lookup (str "x-amz-content-sha256")).getD [] :=
    headerGet_kept _ (by decide) (by decide) (takenOut_other _ _ (by decide)) (by decide)
  have inQuery : (c.parsed D secretKey).queryGet (str "X-Amz-Content-SHA256") =
      ((c.query.lookup (str "X-Amz-Content-SHA256")).getD none).getD [] := by
    rw [← lookup_query, ← parseQuery_wire]
    rfl
  unfold getPayloadHash declaredHash
  rw [inHeader, inQuery]

/-! ### The signed fields -/

/-- Lines of named values agree only if the values do. -/
private theorem lines_inj {names : List Bytes} {f g : Bytes → Bytes} (inFirst : ∀ name ∈ names, 10 ∉ f name)
    (inSecond : ∀ name ∈ names, 10 ∉ g name) (x y : Bytes) :
    (names.flatMap fun name => name ++ str ":" ++ f name ++ str "\n") ++ x =
        (names.flatMap fun name => name ++ str ":" ++ g name ++ str "\n") ++ y ↔
      (∀ name ∈ names, f name = g name) ∧ x = y := by
  induction names with
  | nil => simp
  | cons name names ih =>
    rw [forall_mem_cons] at inFirst inSecond
    have newline : str "\n" = [10] := by decide
    simp only [flatMap_cons, append_assoc, newline, cons_append, nil_append,
      append_cancel_left_eq, append_separator_inj inFirst.1 inSecond.1, forall_mem_cons] at ih ⊢
    rw [ih inFirst.2 inSecond.2, and_assoc]

private theorem trimLeft_subset {forms : List Bytes} (fuel : Nat) (held : b ∈ trimLeft forms fuel s) : b ∈ s := by
  induction fuel generalizing s with
  | zero => exact held
  | succ fuel ih =>
    unfold trimLeft at held
    split at held
    · exact held
    · exact mem_of_mem_drop (ih held)

private theorem trimSpace_subset (held : b ∈ trimSpace s) : b ∈ s := by
  have once := trimLeft_subset _ (mem_reverse.mp held)
  exact trimLeft_subset _ (mem_reverse.mp once)

private theorem squeeze_subset (held : b ∈ squeeze s) : b ∈ s := by
  induction s with
  | nil => exact held
  | cons d s ih =>
    unfold squeeze at held
    split at held
    · exact mem_cons_of_mem _ (ih held)
    · rcases mem_cons.mp held with rfl | later
      · exact mem_cons_self
      · exact mem_cons_of_mem _ (ih later)

private theorem trimAll_subset (held : b ∈ trimAll s) : b ∈ s := by
  have kept := mem_reverse.mp (squeeze_subset held)
  have front := mem_reverse.mp ((dropWhile_sublist _).subset kept)
  exact (dropWhile_sublist _).subset front

private theorem squeeze_plain (plain : 32 ∉ s) : squeeze s = s := by
  induction s with
  | nil => rfl
  | cons d s ih =>
    rw [mem_cons, not_or] at plain
    rw [squeeze, if_neg (fun spaced => plain.1 spaced.1.symm), ih plain.2]

private theorem trimAll_plain (plain : 32 ∉ s) : trimAll s = s := by
  have kept : ∀ {t : Bytes}, 32 ∉ t → t.dropWhile (· = 32) = t := by
    intro t absent
    cases t with
    | nil => rfl
    | cons d t =>
      rw [mem_cons, not_or] at absent
      rw [dropWhile_cons_of_neg (by simpa using Ne.symm absent.1)]
  have reversed : 32 ∉ s.reverse := by simpa using plain
  rw [trimAll, kept plain, kept reversed, reverse_reverse, squeeze_plain plain]

private theorem newline_notMem_values : ∀ value ∈ c.values name, 10 ∉ value := by
  intro value listed
  unfold values at listed
  split at listed
  · rw [mem_singleton.mp listed]
    intro newline
    have visible := all_eq_true.mp c.hostText 10 newline
    exact absurd visible (by decide)
  · obtain ⟨field, held, rfl⟩ := mem_map.mp listed
    exact c.fieldsText field (mem_filter.mp held).1

private theorem newline_notMem_joined {f : Bytes → Bytes} (within : ∀ {s b}, b ∈ f s → b ∈ s)
    {listed : List Bytes} (plain : ∀ value ∈ listed, 10 ∉ value) : 10 ∉ join 44 (listed.map f) := by
  intro held
  rcases mem_join held with isSep | ⟨_, inList, inPart⟩
  · exact absurd isSep (by decide)
  · obtain ⟨value, sent, rfl⟩ := mem_map.mp inList
    exact plain value sent (within inPart)

variable (c) in
/-- The values of a signed field that reach the verifier. -/
def received (name : Bytes) : List Bytes := if takenOut c.chunked name then [] else c.values name

private theorem lower_signed (listed : name ∈ c.signed) : lowerASCII name = name := by
  conv_rhs => rw [← map_id name]
  apply map_congr_left
  intro b held
  have token := byte_of_signed listed held
  simp only [tokenByte, Bool.and_eq_true, decide_eq_true_eq] at token
  rw [if_neg token.2, id]

theorem headerValues_signed (listed : name ∈ c.signed) :
    (c.parsed D secretKey).headerValues name = c.received name := by
  unfold received
  cases taken : takenOut c.chunked name with
  | true => exact headerValues_taken (lower_signed listed) taken
  | false =>
    have notHost : name ≠ str "host" := by
      rintro rfl
      simp [takenOut] at taken
    have notAuthorization : name ≠ str "authorization" := by
      rintro rfl
      rcases c.signsSent _ listed with isHost | sent
      · exact notHost isHost
      · obtain ⟨field, held, named⟩ := mem_map.mp sent
        exact (c.fieldsNamed field held).2.2 named
    rw [headerValues_kept (lower_signed listed) taken notAuthorization, values, if_neg notHost]
    rfl

variable (c) in
/-- The request means the same to both sides. A signed host has to be empty, for
the verifier does not find it among the fields; the path must survive a second
decoding and hold no byte that the two sides encode differently; no query
parameter may hold a space; a signed field must reach the verifier and be
trimmed alike; and the payload hash must be the one the request declares. -/
structure Undisturbed (D : Digests) : Prop where
  host : c.address.host = []
  path : 37 ∉ c.address.path ∨ unescape false c.address.path = none
  pathBytes : ∀ b ∈ c.address.path, b ∉ str "$&+:=@"
  query : ∀ p ∈ c.query, 32 ∉ p.1 ∧ 32 ∉ p.2.getD []
  fields : ∀ name ∈ c.signed, name ≠ str "host" →
    join 44 ((c.received name).map trimSpace) = join 44 ((c.values name).map trimAll)
  payload : c.declaredHash D = c.payloadHash

/-- The two canonical requests are compared part by part. -/
private theorem canonical_eq_iff (path hash : Bytes) (r : Request)
    (found : ∀ name ∈ c.signed, r.headerValues name = c.received name) :
    buildCanonicalRequest c.method path (join 38 (c.query.map parameter)) c.signed r hash = c.canonicalRequest ↔
      getCanonicalURI path = pathEncode c.address.path ∧
      (∀ p ∈ c.query, 32 ∉ p.1 ∧ 32 ∉ p.2.getD []) ∧
      (∀ name ∈ c.signed, join 44 ((c.received name).map trimSpace) = join 44 ((c.values name).map trimAll)) ∧
      hash = c.payloadHash := by
  have lines : c.signed.flatMap (canonicalHeader r) = c.signed.flatMap fun name =>
      name ++ str ":" ++ join 44 ((c.received name).map trimSpace) ++ str "\n" := by
    rw [flatMap_def, flatMap_def]
    congr 1
    apply map_congr_left
    intro name listed
    rw [canonicalHeader, found name listed]
  have receivedPlain : ∀ name ∈ c.signed, 10 ∉ join 44 ((c.received name).map trimSpace) := by
    intro name _
    apply newline_notMem_joined trimSpace_subset
    unfold received
    split
    · simp
    · exact newline_notMem_values
  have sentPlain : ∀ name ∈ c.signed, 10 ∉ join 44 ((c.values name).map trimAll) :=
    fun name _ => newline_notMem_joined trimAll_subset newline_notMem_values
  have queryPlain : 10 ∉ c.canonicalQuery := by
    intro held
    have spelled := mem_canonicalQuery held
    revert spelled
    decide
  have pathPlain : 10 ∉ pathEncode c.address.path := newline_notMem_escape (by decide) _
  unfold buildCanonicalRequest canonicalRequest canonicalHeaders
  rw [join_six, join_six, append_cancel_left_eq, cons_inj_right, append_separator_inj (newline_notMem_uri path) pathPlain,
    append_separator_inj (newline_notMem_query _) queryPlain, getCanonicalQueryString_eq_iff, lines,
    lines_inj receivedPlain sentPlain, cons_inj_right, append_cancel_left_eq, cons_inj_right]

private theorem path_rooted : ∃ rest, c.address.path = 47 :: rest := by
  cases c.address with
  | pathStyle host bucket key => exact ⟨_, rfl⟩
  | virtualHosted bucket authority key => exact ⟨_, rfl⟩

variable (D secretKey) in
theorem derived_eq_iff (domains : Bytes) : c.derived D secretKey domains = c.canonicalRequest ↔ c.Undisturbed D := by
  let sent := c.parsed D secretKey
  let moved := rewriteVirtualHosted domains sent
  have found : ∀ name ∈ c.signed, moved.headerValues name = c.received name := by
    intro name listed
    rw [rewriteVirtualHosted_headerValues, headerValues_signed listed]
  have hash : getPayloadHash D moved = c.declaredHash D := by
    have kept : getPayloadHash D moved = getPayloadHash D sent := by simp [getPayloadHash, moved]
    rw [kept, getPayloadHash_wire]
  have hostLine : join 44 ((c.received (str "host")).map trimSpace) = join 44 ((c.values (str "host")).map trimAll) ↔
      c.address.host = [] := by
    have blank : 32 ∉ c.address.host := by
      intro held
      exact absurd (all_eq_true.mp c.hostText 32 held) (by decide)
    have sent : join 44 ((c.values (str "host")).map trimAll) = c.address.host := by
      simp [values, join, trimAll_plain blank]
    have lost : c.received (str "host") = [] := by simp [received, takenOut]
    rw [sent, lost]
    exact eq_comm
  have unmoved : c.address.host = [] → moved.path = c.address.path := by
    intro hostless
    unfold moved
    rw [rewriteVirtualHosted_hostless domains sent hostless]
    rfl
  obtain ⟨_, rooted⟩ := path_rooted (c := c)
  simp only [derived, rewriteVirtualHosted_method, rewriteVirtualHosted_rawQuery]
  rw [show sent.method = c.method from rfl,
    show sent.rawQuery = join 38 (c.query.map parameter) from rfl, canonical_eq_iff _ _ _ found]
  constructor
  · rintro ⟨uri, query, fields, payload⟩
    have hostless := hostLine.mp (fields _ c.signsHostAndDate.1)
    rw [unmoved hostless, rooted, getCanonicalURI_eq_iff, ← rooted] at uri
    exact ⟨hostless, uri.1, uri.2, query, fun name listed _ => fields name listed, hash.symm.trans payload⟩
  · rintro ⟨hostless, once, bytes, query, fields, payload⟩
    refine ⟨?_, query, ?_, hash.trans payload⟩
    · rw [unmoved hostless, rooted, getCanonicalURI_eq_iff, ← rooted]
      exact ⟨once, bytes⟩
    · intro name listed
      by_cases isHost : name = str "host"
      · rw [isHost]
        exact hostLine.mpr hostless
      · exact fields name listed isHost

/-! ### Acceptance -/

variable (c) in
/-- The request is verified within the window, and its credential is dated. -/
def Timely (clock : Clock) : Prop :=
  ∃ moment, clock.parseTime c.timestamp = some moment ∧ moment.day = c.date ∧
    -window ≤ clock.now - moment.instant ∧ clock.now - moment.instant ≤ window

private theorem validateTimestamp_timely {clock : Clock} (timely : c.Timely clock) :
    validateTimestamp clock c.timestamp c.date = .ok () := by
  obtain ⟨moment, read, day, _, _⟩ := timely
  have inside : ¬ (clock.now - moment.instant < -window ∨ clock.now - moment.instant > window) := by omega
  simp only [validateTimestamp, read]
  rw [if_neg inside, if_neg (not_not.mpr day)]

/-- The verifier compares the signatures of two canonical requests. -/
theorem verify_wire {clock : Clock} (domains : Bytes) (timely : c.Timely clock) :
    verify D clock domains secretKey (c.wire D secretKey) =
      if c.sign D secretKey (c.derived D secretKey domains) ≠ c.sign D secretKey c.canonicalRequest then
        .error (str "signature mismatch") else .ok () := by
  have stamped : requestTimestamp (rewriteVirtualHosted domains (c.parsed D secretKey)) = c.timestamp := by
    have kept : requestTimestamp (rewriteVirtualHosted domains (c.parsed D secretKey)) =
        requestTimestamp (c.parsed D secretKey) := by simp [requestTimestamp]
    rw [kept, timestamp_found]
  have scopeWritten : c.date ++ str "/" ++ c.region ++ str "/" ++ c.service ++ str "/aws4_request" = c.scope := by
    simp [scope, join, str]
  have same : ∀ canonical, computeSignature D (deriveSigningKey D secretKey c.date c.region c.service)
      (buildStringToSign D c.timestamp c.date c.region c.service canonical) = c.sign D secretKey canonical := by
    intro canonical
    rw [computeSignature, buildStringToSign, deriveSigningKey, scopeWritten]
    rfl
  unfold verify derived
  rw [read_wire]
  simp [verifySigV4Header, rewriteVirtualHosted_headerGet, authorization_found, parse_authorization, stamped,
    c.dated.2, validateTimestamp_timely timely, same]

end Signing

namespace Sample

def canonicalText (host : Bytes) : Bytes :=
  str "GET\n/photos/cat.jpg\n\nhost:" ++ host ++ str "\nx-amz-content-sha256:UNSIGNED-PAYLOAD\n" ++
    str "x-amz-date:20240501T120000Z\n\nhost;x-amz-content-sha256;x-amz-date\nUNSIGNED-PAYLOAD"

/-- SHA-256 of the texts that arise for the request below. -/
def sha256Values : List (Bytes × Nat) :=
  [(canonicalText (str "localhost:9000"), 0xda60455ff76b7e0dcb3e63adc0a752abf6bbe3eab636c830d35d9f795cef8764),
    (canonicalText [], 0xa7a975e2c4e04ea86e5c20cd051145893a5da9d6718c99c1ae0c83da5cf079ca)]

def hmacValues : List ((Bytes × Bytes) × Nat) :=
  let kDate := 0x12f2f3bceb3d15fdfab49435412e8cc928e48783d0021672db0b10ffaef06a3f
  let kRegion := 0x32e875f51f4891ba57022bcc361a33e55357992a2d81080af0523e6f41e3de98
  let kService := 0xd1862a3fbc42bb368cd96d51d0edceadd3f89fcec5827f393d763879184e74c9
  let kSigning := 0x31087f3d290e2945e7ea998398cbd49436c4686eee4b2ad53ddb4facdaf8ed27
  let heading := str "AWS4-HMAC-SHA256\n20240501T120000Z\n20240501/us-east-1/s3/aws4_request\n"
  [((str "AWS4secret", str "20240501"), kDate),
    ((bigEndian 32 kDate, str "us-east-1"), kRegion),
    ((bigEndian 32 kRegion, str "s3"), kService),
    ((bigEndian 32 kService, str "aws4_request"), kSigning),
    ((bigEndian 32 kSigning, heading ++ str "da60455ff76b7e0dcb3e63adc0a752abf6bbe3eab636c830d35d9f795cef8764"),
      0x2066625dbed1cbbdf23b936b0e512ed722561a5622a8083fd02e2d648ec57623),
    ((bigEndian 32 kSigning, heading ++ str "a7a975e2c4e04ea86e5c20cd051145893a5da9d6718c99c1ae0c83da5cf079ca"),
      0x4e83355355135f47acaac5f7d69f67514b9afe962528725c6e21dfe694457bc1)]

def digests : Digests where
  sha256 message := bigEndian 32 ((sha256Values.lookup message).getD 0)
  hmac key message := bigEndian 32 ((hmacValues.lookup (key, message)).getD 0)
  sha256_length _ := bigEndian_length _ _
  hmac_length _ _ := bigEndian_length _ _

def clock : Clock where
  now := 1714564800 * 10 ^ 9
  parseTime text :=
    if text = str "20240501T120000Z" then some ⟨1714564800 * 10 ^ 9, str "20240501"⟩ else none
  parseDuration _ := none

/-- A path-style GET of an object. -/
def get (host : Bytes) (hostText : host.all graphic = true) : Signing where
  method := str "GET"
  address := .pathStyle host (str "photos") (str "cat.jpg")
  query := []
  fields := [(str "x-amz-content-sha256", str "UNSIGNED-PAYLOAD"), (str "x-amz-date", str "20240501T120000Z")]
  signed := [str "host", str "x-amz-content-sha256", str "x-amz-date"]
  payloadHash := str "UNSIGNED-PAYLOAD"
  timestamp := str "20240501T120000Z"
  accessKey := str "AKIAEXAMPLE"
  date := str "20240501"
  region := str "us-east-1"
  service := str "s3"
  remoteAddr := str "127.0.0.1:40000"
  contentLength := 0
  body := ⟨[], some .eof⟩
  hostText
  queryNamed := by decide
  fieldsNamed := by decide
  fieldsText := by decide
  lengthOnce := by decide
  dated := by decide
  signsHostAndDate := by decide
  signsSent := by decide
  ascending := by decide
  scopeText := by decide

theorem noHost_text : ([] : Bytes).all graphic = true := rfl

theorem get_timely (host : Bytes) (hostText : host.all graphic = true) : (get host hostText).Timely clock := by
  refine ⟨⟨1714564800 * 10 ^ 9, str "20240501"⟩, ?_, rfl, by decide, by decide⟩
  simp [clock, get]

end Sample

open Sample

end CipherLake.SigV4Completeness

import CipherLake.SigV4Completeness

/-! What a signature is good for besides the request it was made for. The path
is decoded once more than `net/http` decodes it, a parameter that cannot be
decoded is signed and not read, and the values of a parameter are sorted, so
two requests with one signature need not ask for the same. -/
namespace CipherLake.SigV4Binding
open Lib Http SigV4 List

/-- `r.URL.Query()[name]`. -/
def queryValues (r : Request) (name : Bytes) : List Bytes := (r.query.filter fun p => p.1 = name).map (·.2)

/-- The same method, path and query. -/
structure SameOperation (r r' : Request) : Prop where
  method : r.method = r'.method
  path : r.path = r'.path
  query : ∀ name, queryValues r name = queryValues r' name

/-- The parameters that are signed and not read. -/
def unread (r : Request) : List (Bytes × Bytes) :=
  ((parameters r.rawQuery).filter fun part => (readParameter part).isNone).map signedParameter

/-- The texts of two requests are alike where the canonical form forgets how
they were written: the same bytes of the paths are still escaped, and in the
same way; the same parameters are not read; and parameters that are repeated
have their values in the same order. -/
structure Alike (r r' : Request) : Prop where
  escapes : spelling r.path = spelling r'.path
  unread : (unread r).Perm (unread r')
  order : ∀ name, 2 ≤ (queryValues r name).length → queryValues r name = queryValues r' name

/-- The canonical request a signature is compared for. -/
def canonicalRequest (D : Digests) (params : SigV4Params) (r : Request) : Bytes :=
  buildCanonicalRequest r.method r.path r.rawQuery params.signedHeaders r (getPayloadHash D r)

def stringToSign (D : Digests) (params : SigV4Params) (r : Request) : Bytes :=
  buildStringToSign D (requestTimestamp r) params.date params.region params.service (canonicalRequest D params r)

/-- Two texts are told apart by a digest. -/
def Separates (digest : Bytes → Bytes) (a b : Bytes) : Prop := digest a = digest b → a = b

/-! ### From the signature to the canonical request -/

theorem hexLower_injective : Function.Injective hexLower := by
  have digit : ∀ m < 16, ∀ n < 16, lowerASCII [hexDigit m] = lowerASCII [hexDigit n] → m = n := by decide
  intro s t same
  induction s generalizing t with
  | nil =>
    cases t with
    | nil => rfl
    | cons d t => cases same
  | cons c s ih =>
    cases t with
    | nil => cases same
    | cons d t =>
      have texts : lowerASCII [hexDigit (c.toNat / 16), hexDigit (c.toNat % 16)] ++ hexLower s =
          lowerASCII [hexDigit (d.toNat / 16), hexDigit (d.toNat % 16)] ++ hexLower t := by
        simpa [hexLower] using same
      obtain ⟨first, rest⟩ := append_inj texts (by simp [lowerASCII])
      have cBound := c.toNat_lt
      have dBound := d.toNat_lt
      simp only [lowerASCII, map_cons, map_nil, cons.injEq, and_true] at first
      have high := digit (c.toNat / 16) (by omega) (d.toNat / 16) (by omega) (by simp [lowerASCII, first.1])
      have low := digit (c.toNat % 16) (by omega) (d.toNat % 16) (by omega) (by simp [lowerASCII, first.2])
      have whole : c = d := UInt8.toNat_inj.mp (by omega)
      rw [whole, ih rest]

theorem hexLower_length (s : Bytes) : (hexLower s).length = 2 * s.length := by
  induction s with
  | nil => rfl
  | cons c s ih =>
    have grown : hexLower (c :: s) = lowerASCII [hexDigit (c.toNat / 16), hexDigit (c.toNat % 16)] ++ hexLower s := rfl
    rw [grown, length_append, ih]
    simp [lowerASCII]
    omega

variable {D : Digests} {r r' : Request} {path remoteAddr : Bytes}

/-- An accepted request is signed. -/
theorem verify_ok {clock : Clock} {secretKey : Bytes} {params : SigV4Params}
    (parsed : parseAuthorizationHeader (r.headerGet (str "Authorization")) = .ok params)
    (accepted : verifySigV4Header D clock r secretKey = .ok ()) :
    computeSignature D (deriveSigningKey D secretKey params.date params.region params.service)
      (stringToSign D params r) = params.signature := by
  unfold verifySigV4Header at accepted
  simp only [parsed] at accepted
  split at accepted
  · cases accepted
  · split at accepted
    · cases accepted
    · split at accepted
      · cases accepted
      · next same => exact not_not.mp same

/-- A string to sign ends with the digest of its canonical request. -/
theorem canonicalRequest_of_text {params : SigV4Params}
    (separates : Separates D.sha256 (canonicalRequest D params r) (canonicalRequest D params r'))
    (same : stringToSign D params r = stringToSign D params r') :
    canonicalRequest D params r = canonicalRequest D params r' := by
  have ends (r : Request) : ∃ heading, stringToSign D params r =
      heading ++ hexLower (D.sha256 (canonicalRequest D params r)) := by
    refine ⟨str "AWS4-HMAC-SHA256" ++ 10 :: requestTimestamp r ++ 10 :: (params.date ++ str "/" ++ params.region ++
      str "/" ++ params.service ++ str "/aws4_request") ++ [10], ?_⟩
    simp [stringToSign, buildStringToSign, join]
  obtain ⟨heading, text⟩ := ends r
  obtain ⟨_, text'⟩ := ends r'
  rw [text, text'] at same
  have lengths : (hexLower (D.sha256 (canonicalRequest D params r))).length =
      (hexLower (D.sha256 (canonicalRequest D params r'))).length := by
    rw [hexLower_length, hexLower_length, D.sha256_length, D.sha256_length]
  exact separates (hexLower_injective (append_inj' same lengths).2)

/-- The first three lines of a canonical request can be told apart. -/
theorem lines_of_canonicalRequest {params : SigV4Params} (token : 10 ∉ r.method) (token' : 10 ∉ r'.method)
    (same : canonicalRequest D params r = canonicalRequest D params r') :
    r.method = r'.method ∧ getCanonicalURI r.path = getCanonicalURI r'.path ∧
      getCanonicalQueryString r.rawQuery = getCanonicalQueryString r'.rawQuery := by
  unfold canonicalRequest buildCanonicalRequest at same
  rw [join_six, join_six, append_separator_inj token token',
    append_separator_inj (newline_notMem_uri _) (newline_notMem_uri _),
    append_separator_inj (newline_notMem_query _) (newline_notMem_query _)] at same
  exact ⟨same.1, same.2.1, same.2.2.1⟩

/-! ### From the canonical query to the query -/

/-- The parameters that are signed are those that are read and those that are
not. -/
theorem query_append_unread (r : Request) :
    (r.query ++ unread r).Perm ((parameters r.rawQuery).map signedParameter) := by
  have split (parts : List Bytes) : (parts.filterMap readParameter ++
      (parts.filter fun part => (readParameter part).isNone).map signedParameter).Perm
        (parts.map signedParameter) := by
    induction parts with
    | nil => exact List.Perm.refl _
    | cons part parts ih =>
      cases read : readParameter part with
      | none =>
        simp only [filterMap_cons, read, filter_cons, Option.isNone_none, if_true, map_cons]
        exact perm_middle.trans (ih.cons _)
      | some p =>
        simp only [filterMap_cons, read, filter_cons, Option.isNone_some, Bool.false_eq_true, if_false,
          map_cons, cons_append, readParameter_signed read]
        exact ih.cons _
  rw [Request.query, parseQuery_eq]
  exact split (parameters r.rawQuery)

/-- The values of all names make up the query. -/
theorem query_perm (same : ∀ name, queryValues r name = queryValues r' name) : r.query.Perm r'.query := by
  have counted (r : Request) (p : Bytes × Bytes) : r.query.count p = (queryValues r p.1).count p.2 := by
    unfold queryValues
    induction r.query with
    | nil => rfl
    | cons q query ih =>
      obtain ⟨name, value⟩ := p
      obtain ⟨name', value'⟩ := q
      by_cases here : name' = name
      · subst here
        simp only [filter_cons, decide_true, if_true, map_cons, count_cons, ih]
        simp
      · have other : ¬ ((name', value') = (name, value)) := fun eq => here (Prod.mk.inj eq).1
        simp only [filter_cons, here, decide_false, Bool.false_eq_true, if_false, count_cons, ih]
        simp [other]
  rw [perm_iff_count]
  intro p
  rw [counted, counted, same]

/-- Of two requests that are accepted with one Authorization header, the second
asks for the same as the first exactly if the two are written alike. -/
theorem same_operation_iff (D : Digests) (clock clock' : Clock) (secretKey : Bytes) (params : SigV4Params)
    (r r' : Request)
    (parsed : parseAuthorizationHeader (r.headerGet (str "Authorization")) = .ok params)
    (captured : r'.headerGet (str "Authorization") = r.headerGet (str "Authorization"))
    (accepted : verifySigV4Header D clock r secretKey = .ok ())
    (accepted' : verifySigV4Header D clock' r' secretKey = .ok ())
    (token : 10 ∉ r.method) (token' : 10 ∉ r'.method)
    (sha256 : Separates D.sha256 (canonicalRequest D params r) (canonicalRequest D params r'))
    (hmac : ∀ key, Separates (D.hmac key) (stringToSign D params r) (stringToSign D params r')) :
    SameOperation r r' ↔ Alike r r' := by
  have signature := verify_ok parsed accepted
  have signature' := verify_ok (captured ▸ parsed) accepted'
  have texts : stringToSign D params r = stringToSign D params r' :=
    hmac _ (hexLower_injective (signature.trans signature'.symm))
  obtain ⟨methods, uris, queries⟩ :=
    lines_of_canonicalRequest token token' (canonicalRequest_of_text sha256 texts)
  have signed : (r.query ++ unread r).Perm (r'.query ++ unread r') :=
    (query_append_unread r).trans ((signedParameters_perm queries).trans (query_append_unread r').symm)
  constructor
  · intro same
    refine ⟨congrArg spelling same.path, ?_, fun name _ => same.query name⟩
    have whole := signed.trans ((query_perm same.query).symm.append_right (unread r'))
    exact (perm_append_left_iff _).mp whole
  · intro alike
    have read : r.query.Perm r'.query := by
      have whole := signed.trans (alike.unread.symm.append_left r'.query)
      exact (perm_append_right_iff _).mp whole
    refine ⟨methods, getCanonicalURI_inj uris alike.escapes, fun name => ?_⟩
    have perm : (queryValues r name).Perm (queryValues r' name) := (read.filter _).map _
    by_cases repeated : 2 ≤ (queryValues r name).length
    · exact alike.order name repeated
    match values : queryValues r name, values' : queryValues r' name with
    | [], _ =>
      rw [values, values', nil_perm] at perm
      exact perm.symm
    | [value], _ =>
      rw [values, values', singleton_perm] at perm
      exact perm
    | _ :: _ :: _, _ =>
      rw [values] at repeated
      simp at repeated

theorem verify_congr {clock : Clock} {secretKey : Bytes} (same : getCanonicalURI path = getCanonicalURI r.path) :
    verifySigV4Header D clock { r with path, remoteAddr } secretKey = verifySigV4Header D clock r secretKey := by
  have canonical (signedHeaders : List Bytes) (hash : Bytes) :
      buildCanonicalRequest r.method path r.rawQuery signedHeaders { r with path, remoteAddr } hash =
        buildCanonicalRequest r.method r.path r.rawQuery signedHeaders r hash := by
    simp only [buildCanonicalRequest, same]
    rfl
  unfold verifySigV4Header
  simp only [canonical]
  rfl

namespace Sample
open SigV4Completeness Routing

/-- A GET of `photos/cat.jpg`. -/
def signing : Signing := SigV4Completeness.Sample.get [] rfl

def digests : Digests := SigV4Completeness.Sample.digests

def clock : Clock := SigV4Completeness.Sample.clock

/-- The request as it is received. -/
def get : Request := signing.parsed digests (str "secret")

/-- The same header sent for the object `cat%2Ejpg`. -/
def other : Request := { get with path := str "/photos/cat%2Ejpg", remoteAddr := get.remoteAddr }

/-- The same request from another place. -/
def replayed : Request := { get with path := get.path, remoteAddr := str "10.0.0.7:50000" }

def params : SigV4Params :=
  ⟨signing.accessKey, signing.date, signing.region, signing.service, signing.signed,
    signing.sign digests (str "secret") signing.canonicalRequest⟩

theorem get_accepted : verifySigV4Header digests clock get (str "secret") = .ok () := by
  have same : signing.derived digests (str "secret") [] = signing.canonicalRequest :=
    (Signing.derived_eq_iff digests (str "secret") []).mpr
      ⟨rfl, Or.inl (by decide), by decide, by decide, by decide +kernel, by decide⟩
  have verified := @Signing.verify_wire digests (str "secret") signing clock []
    (SigV4Completeness.Sample.get_timely [] rfl)
  rw [same, if_neg (not_not.mpr rfl), verify, Signing.read_wire] at verified
  exact verified

end Sample

open Sample

/-- A header signed for one object opens another one, whose name is an escaped
form of the first. -/
theorem signature_opens_other_object : verifySigV4Header digests clock get (str "secret") = .ok () ∧
      verifySigV4Header digests clock other (str "secret") = .ok () ∧
      other.header = get.header ∧ ¬ SameOperation get other := by
  have uri : getCanonicalURI (str "/photos/cat%2Ejpg") = getCanonicalURI get.path := by
    decide +kernel
  have accepted : verifySigV4Header digests clock other (str "secret") = .ok () := by
    unfold other
    rw [verify_congr uri]
    exact get_accepted
  refine ⟨get_accepted, accepted, rfl, fun same => ?_⟩
  have paths : str "/photos/cat.jpg" = str "/photos/cat%2Ejpg" := same.path
  exact absurd paths (by decide)

/-- The captured request itself is sent again. -/
theorem replay_same_operation : SameOperation get replayed := by
  have accepted : verifySigV4Header digests clock replayed (str "secret") = .ok () := by
    unfold replayed
    rw [verify_congr rfl]
    exact get_accepted
  have canonical : canonicalRequest digests params replayed = canonicalRequest digests params get := by
    rfl
  have text : stringToSign digests params replayed = stringToSign digests params get := by
    rfl
  refine (same_operation_iff digests clock clock (str "secret") params get
    replayed SigV4Completeness.Signing.parse_authorization rfl get_accepted accepted (by decide) (by decide)
    (fun _ => canonical.symm) (fun _ _ => text.symm)).mpr ?_
  exact ⟨rfl, List.Perm.refl _, fun _ _ => rfl⟩

end CipherLake.SigV4Binding

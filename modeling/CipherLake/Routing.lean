import CipherLake.Http

/-! How the gateway reads the bucket and the key out of a request. A request
whose host names a bucket gets the bucket put in front of its path. -/
namespace CipherLake.Routing
open Lib Http

/-- `net.SplitHostPort`, of which only the host is used. -/
def splitHostPort (hostport : Bytes) : Option Bytes :=
  match cut hostport.reverse 58 with
  | (_, none) => none
  | (port, some before) =>
    let host := before.reverse
    let port := port.reverse
    match hostport with
    | 91 :: inner =>
      match cut inner 93 with
      | (_, none) => none
      | (address, some rest) =>
        -- The bracket has to close right before the last colon.
        if rest = 58 :: port ∧ 91 ∉ inner ∧ 93 ∉ rest then some address else none
    | _ => if 58 ∈ host ∨ 91 ∈ hostport ∨ 93 ∈ hostport then none else some host

def alphanumeric (c : UInt8) : Bool := (97 ≤ c ∧ c ≤ 122) || (48 ≤ c ∧ c ≤ 57)

/-- `bucketNameRegex`. -/
def matchesBucketName (name : Bytes) : Bool :=
  3 ≤ name.length && name.length ≤ 63 && name.all (fun c => alphanumeric c || c = 46 || c = 45) &&
    (name.head?.map alphanumeric).getD false && (name.getLast?.map alphanumeric).getD false

/-- `pathTraversalPattern`. -/
def pathTraversal (path : Bytes) : Bool := (path.splitOn 47).any (· = str "..")

/-- `controlCharPattern`. -/
def controlChar (path : Bytes) : Bool := path.any (· < 0x20)

def validateBucketName (name : Bytes) : Bool :=
  matchesBucketName name && ¬ hasPrefix name (str "xn--") && ¬ hasSuffix name (str "-s3alias")

def validateObjectKey (key : Bytes) : Bool :=
  key.length ≤ 1024 && ¬ pathTraversal key && ¬ controlChar key

/-- The first of the configured domains the host is a bucket of. -/
def extractVirtualHostedBucket (host domains : Bytes) : Bytes :=
  if domains = [] then []
  else
    let host := lowerASCII ((splitHostPort host).getD host)
    let bucketOf (domain : Bytes) : Option Bytes :=
      let suffix := str "." ++ domain
      if domain ≠ [] ∧ hasSuffix host suffix ∧ matchesBucketName (trimSuffix host suffix) then
        some (trimSuffix host suffix)
      else none
    (((domains.splitOn 44).map fun domain => trimSpace (lowerASCII domain)).findSome? bucketOf).getD []

/-- The request as `handleRequest` passes it on. -/
def rewriteVirtualHosted (domains : Bytes) (r : Request) : Request :=
  let bucket := extractVirtualHostedBucket r.host domains
  if bucket ≠ [] then { r with path := str "/" ++ bucket ++ r.path } else r

section Kept

variable (domains : Bytes) (r : Request)

/-- The rewriting touches the path alone. -/
theorem rewriteVirtualHosted_eq : ∃ path, rewriteVirtualHosted domains r = { r with path } := by
  simp only [rewriteVirtualHosted]
  split
  · exact ⟨_, rfl⟩
  · exact ⟨r.path, rfl⟩

@[simp] theorem rewriteVirtualHosted_method : (rewriteVirtualHosted domains r).method = r.method := by
  obtain ⟨_, rewritten⟩ := rewriteVirtualHosted_eq domains r
  rw [rewritten]

@[simp] theorem rewriteVirtualHosted_rawQuery : (rewriteVirtualHosted domains r).rawQuery = r.rawQuery := by
  obtain ⟨_, rewritten⟩ := rewriteVirtualHosted_eq domains r
  rw [rewritten]

@[simp] theorem rewriteVirtualHosted_headerValues (name : Bytes) :
    (rewriteVirtualHosted domains r).headerValues name = r.headerValues name := by
  obtain ⟨_, rewritten⟩ := rewriteVirtualHosted_eq domains r
  rw [rewritten]
  rfl

@[simp] theorem rewriteVirtualHosted_headerGet (name : Bytes) :
    (rewriteVirtualHosted domains r).headerGet name = r.headerGet name := by
  simp [Request.headerGet]

@[simp] theorem rewriteVirtualHosted_queryGet (name : Bytes) :
    (rewriteVirtualHosted domains r).queryGet name = r.queryGet name := by
  simp [Request.queryGet, Request.query]

/-- A request without a host is passed on as it is. -/
theorem rewriteVirtualHosted_hostless (hostless : r.host = []) : rewriteVirtualHosted domains r = r := by
  have tooShort : ∀ domain : Bytes, hasSuffix [] (str "." ++ domain) = false := by
    intro domain
    cases found : hasSuffix [] (str "." ++ domain) with
    | false => rfl
    | true => simpa [str] using List.isSuffixOf_iff_suffix.mp found
  have nowhere : extractVirtualHostedBucket [] domains = [] := by
    have unported : lowerASCII ((splitHostPort []).getD []) = [] := by decide
    simp only [extractVirtualHostedBucket, unported]
    split
    · rfl
    · simp only [tooShort, Bool.false_eq_true, false_and, and_false, if_false]
      rw [List.findSome?_eq_none_iff.mpr fun _ _ => rfl]
      rfl
  simp [rewriteVirtualHosted, hostless, nowhere]

end Kept

end CipherLake.Routing

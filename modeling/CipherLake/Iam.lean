import CipherLake.Lib.GoStrings
import CipherLake.Lib.Table

/-! IAM policies: the stored users, groups and policies, the matching of a
statement against a request, and `PolicyEvaluator.Evaluate`. Variable
references are substituted until none is left, which need not end; a result
`none` is a loop that is not over after the given number of rounds. -/
namespace CipherLake.Iam
open Lib

/-- What the evaluator takes from the Go library on arbitrary text. A printed
time holds no brace. -/
structure Library where
  toLower : Bytes → Bytes
  equalFold : Bytes → Bytes → Bool
  Number : Type
  parseFloat : Bytes → Option Number
  (numberEq numberLt : Number → Number → Bool)
  parseRFC3339 : Bytes → Option Int
  formatRFC3339 : Nat → Bytes
  parseAddr : Bytes → Option Nat
  parsePrefix : Bytes → Option (Nat → Bool)
  formatRFC3339_plain : ∀ time, 125 ∉ formatRFC3339 time

/-! ### Documents -/

/-- A condition operand as JSON gives it; `other` has its printed form. -/
inductive Operand where
  | text (value : Bytes)
  | many (items : List (Option Bytes))
  | flag (value : Bool)
  | other (printed : Bytes)
  deriving DecidableEq, Repr

structure Principal where
  (aws service federated : List Bytes)
  deriving DecidableEq, Repr

structure Statement where
  (sid effect : Bytes)
  (action notAction resource notResource : List Bytes)
  principal : Option Principal
  condition : List (Bytes × List (Bytes × Operand))
  deriving DecidableEq, Repr

structure PolicyDocument where
  id : Bytes
  statement : List Statement
  deriving DecidableEq, Repr

structure AccessKey where
  (accessKeyID secretKeyEnc status : Bytes)
  deriving DecidableEq, Repr

structure IAMUser where
  (id name : Bytes)
  accessKeys : List AccessKey
  (groups attachedPolicies : List Bytes)
  inlinePolicies : List PolicyDocument
  permissionBoundary : Bytes
  deriving DecidableEq, Repr

structure TemporaryCredential where
  (accessKeyID secretAccessKey sessionToken : Bytes)
  expiration : Nat
  deriving DecidableEq, Repr

/-- The bolt buckets of the IAM store, and the organisation's control policy.
A group is its attached policies, a managed policy its document. -/
structure IAMStore where
  users : Table Bytes IAMUser
  groups : Table Bytes (List Bytes)
  (policies bucketPolicies : Table Bytes PolicyDocument)
  tempCredentials : Table Bytes TemporaryCredential
  scp : Option PolicyDocument

structure EvalContext where
  (principal action resource : Bytes)
  conditions : List (Bytes × Bytes)
  sourceIP : Bytes
  time : Nat
  (userAgent principalType : Bytes)
  (resourceTags principalTags requestTags : List (Bytes × Bytes))
  (s3Prefix s3ACL : Bytes)
  deriving DecidableEq, Repr

inductive Decision where
  | deny
  | allow
  | implicitDeny
  deriving DecidableEq, Repr

structure EvalResult where
  decision : Decision
  (matchedBy policyType policyName details : Bytes)
  deriving DecidableEq, Repr

/-! ### Names -/

def arnPrefix : Bytes := str "arn:cipherlake:"
def makeARN (service resource : Bytes) : Bytes := arnPrefix ++ service ++ str ":::" ++ resource
def makeUserARN (userName : Bytes) : Bytes := makeARN (str "iam") (str "user/" ++ userName)
def makeBucketARN (bucketName : Bytes) : Bytes := makeARN (str "s3") bucketName
def makeObjectARN (bucketName objectKey : Bytes) : Bytes :=
  makeARN (str "s3") (bucketName ++ str "/" ++ objectKey)

def extractBucketFromResource (resource : Bytes) : Bytes :=
  if ¬ hasPrefix resource (makeARN (str "s3") []) then []
  else (cut (trimPrefix resource (makeARN (str "s3") [])) 47).1

/-! ### Matching -/

/-- The loop of `globMatch` over what is left of the pattern and of the text,
with what stood behind the last star and where it was tried. -/
def globLoop : Nat → Bytes → Bytes → Option (Bytes × Bytes) → Option Bool
  | 0, _, _, _ => none
  | _ + 1, pattern, [], _ => some (pattern.dropWhile (· = 42)).isEmpty
  | fuel + 1, pattern, c :: text, star =>
    let retry :=
      match star with
      | some (after, _ :: tried) => globLoop fuel after tried (some (after, tried))
      | _ => some false
    match pattern with
    | [] => retry
    | p :: rest =>
      if p = c ∨ p = 63 then globLoop fuel rest text star
      else if p = 42 then globLoop fuel rest (c :: text) (some (rest, c :: text))
      else retry

def globMatch (pattern text : Bytes) : Bool :=
  (globLoop ((text.length + 2) * (pattern.length + 2)) pattern text none).getD false

variable (test : Test) (s : IAMStore) (ctx : EvalContext) (L : Library)

def matchAction (pattern action : Bytes) : Bool :=
  if pattern = str "*" then true
  else
    let pattern := L.toLower pattern
    let action := L.toLower action
    if pattern = action then true
    else if hasSuffix pattern (str ":*") then hasPrefix action (trimSuffix pattern (str ":*") ++ str ":")
    else if 42 ∈ pattern ∨ 63 ∈ pattern then globMatch pattern action
    else false

def actionMatches (policyActions : List Bytes) (requestAction : Bytes) : Bool :=
  policyActions.any fun action => matchAction L action requestAction

def matchResource (pattern resource : Bytes) : Bool :=
  if pattern = str "*" then true
  else if pattern = resource then true
  else if 42 ∈ pattern ∨ 63 ∈ pattern then globMatch pattern resource
  else false

def resourceMatches (policyResources : List Bytes) (requestResource : Bytes) : Bool :=
  policyResources.any fun resource => matchResource resource requestResource

def principalMatches (principal : Principal) (requestPrincipal : Bytes) : Bool :=
  principal.aws.any (fun p => p = str "*" || p = requestPrincipal ||
    (hasPrefix requestPrincipal arnPrefix && globMatch p requestPrincipal)) ||
  (principal.aws.isEmpty && principal.service.isEmpty && principal.federated.isEmpty)

/-! ### Conditions -/

/-- A Go map lookup, with the empty string for an absent key. -/
def mapGet (m : List (Bytes × Bytes)) (key : Bytes) : Bytes := (m.lookup key).getD []

def resolveConditionKey (key : Bytes) (ctx : EvalContext) : Bytes :=
  let keyLower := L.toLower key
  if hasPrefix keyLower (str "aws:resourcetag/") then
    mapGet ctx.resourceTags (key.drop (str "aws:resourcetag/").length)
  else if hasPrefix keyLower (str "aws:principaltag/") then
    mapGet ctx.principalTags (key.drop (str "aws:principaltag/").length)
  else if hasPrefix keyLower (str "aws:requesttag/") then
    mapGet ctx.requestTags (key.drop (str "aws:requesttag/").length)
  else if keyLower = str "aws:sourceip" then ctx.sourceIP
  else if keyLower = str "aws:currenttime" then if ctx.time = 0 then [] else L.formatRFC3339 ctx.time
  else if keyLower = str "aws:useragent" then ctx.userAgent
  else if keyLower = str "aws:principaltype" then ctx.principalType
  else if keyLower = str "s3:prefix" then ctx.s3Prefix
  else if keyLower = str "s3:x-amz-acl" then ctx.s3ACL
  else mapGet ctx.conditions key

/-- `resolveVariableSubstitution`: the first reference is replaced by its
value, whatever that value contains, and the search starts again. -/
def resolveVariableSubstitution (L : Library) (ctx : EvalContext) : Nat → Bytes → Option Bytes
  | 0, _ => none
  | fuel + 1, result =>
    match index result (str "$\x7b") with
    | none => some result
    | some start =>
      match index (result.drop start) (str "\x7d") with
      | none => some result
      | some offset =>
        let varRef := (result.drop (start + 2)).take (offset - 2)
        resolveVariableSubstitution L ctx fuel
          (result.take start ++ resolveConditionKey L varRef ctx ++ result.drop (start + offset + 1))

def nullConditionMatches (key : Bytes) (expectedValue : Operand) (ctx : EvalContext) : Bool :=
  let keyIsAbsent : Bool := resolveConditionKey L key ctx = []
  let expectedNull : Bool :=
    match expectedValue with
    | .text v => L.toLower v = str "true"
    | .flag v => v
    | _ => false
  keyIsAbsent == expectedNull

def ipInRange (ip cidr : Bytes) : Bool :=
  if cidr = str "*" then true
  else if 47 ∉ cidr then ip = cidr
  else
    match L.parseAddr ip, L.parsePrefix cidr with
    | some addr, some contains => contains addr
    | _, _ => false

/-- Two parsed operands are compared as values, unparsed ones as text. -/
def compareParsed (parse : Bytes → Option α) (values : α → α → Bool) (texts : Bytes → Bytes → Bool)
    (actual expected : Bytes) : Bool :=
  match parse actual, parse expected with
  | some a, some b => values a b
  | _, _ => texts actual expected

def numericEquals : Bytes → Bytes → Bool :=
  compareParsed L.parseFloat L.numberEq fun a b => a = b
def numericLessThan : Bytes → Bytes → Bool :=
  compareParsed L.parseFloat L.numberLt fun a b => a < b
def numericGreaterThan : Bytes → Bytes → Bool :=
  compareParsed L.parseFloat (fun a b => L.numberLt b a) fun a b => b < a
def dateLessThan : Bytes → Bytes → Bool :=
  compareParsed L.parseRFC3339 (fun a b => a < b) fun a b => a < b
def dateGreaterThan : Bytes → Bytes → Bool :=
  compareParsed L.parseRFC3339 (fun a b => b < a) fun a b => b < a

def arnMatch (pattern arn : Bytes) : Bool :=
  if pattern = str "*" then true
  else if pattern = arn then true
  else if 42 ∈ pattern ∨ 63 ∈ pattern then globMatch pattern arn
  else L.equalFold pattern arn

def compareValues (operator actual expected : Bytes) : Bool :=
  if operator = str "stringequals" then actual = expected
  else if operator = str "stringnotequals" then actual ≠ expected
  else if operator = str "stringlike" then globMatch expected actual
  else if operator = str "stringnotlike" then !globMatch expected actual
  else if operator = str "numericequals" then numericEquals L actual expected
  else if operator = str "numericnotequals" then !numericEquals L actual expected
  else if operator = str "numericlessthan" then numericLessThan L actual expected
  else if operator = str "numericgreaterthan" then numericGreaterThan L actual expected
  else if operator = str "datelessthan" then dateLessThan L actual expected
  else if operator = str "dategreaterthan" then dateGreaterThan L actual expected
  else if operator = str "ipaddress" then ipInRange L actual expected
  else if operator = str "notipaddress" then !ipInRange L actual expected
  else if operator = str "bool" then L.toLower actual = L.toLower expected
  else if operator = str "arnequals" ∨ operator = str "arnlike" then arnMatch L expected actual
  else actual = expected

/-- Any of several operands suffices; operands that are no strings are skipped. -/
def anyMatches (L : Library) (fuel : Nat) (ctx : EvalContext) (opLower actual : Bytes) :
    List (Option Bytes) → Option Bool
  | [] => some false
  | none :: items => anyMatches L fuel ctx opLower actual items
  | some item :: items =>
    match resolveVariableSubstitution L ctx fuel item with
    | none => none
    | some resolved =>
      if compareValues L opLower actual resolved then some true
      else anyMatches L fuel ctx opLower actual items

def conditionMatches (L : Library) (fuel : Nat) (operator key : Bytes) (expectedValue : Operand)
    (ctx : EvalContext) : Option Bool :=
  let opLower := L.toLower operator
  if opLower = str "null" then some (nullConditionMatches L key expectedValue ctx)
  else
    let actualValue := resolveConditionKey L key ctx
    match expectedValue with
    | .text v => (resolveVariableSubstitution L ctx fuel v).map (compareValues L opLower actualValue)
    | .many items => anyMatches L fuel ctx opLower actualValue items
    | .flag v => some (compareValues L opLower actualValue (if v then str "true" else str "false"))
    | .other printed => some (compareValues L opLower actualValue printed)

/-- A conjunction that stops at the first operand that fails. -/
def allMatch (test : α → Option Bool) : List α → Option Bool
  | [] => some true
  | x :: rest =>
    match test x with
    | none => none
    | some false => some false
    | some true => allMatch test rest

def conditionsMatch (fuel : Nat) (conditions : List (Bytes × List (Bytes × Operand)))
    (ctx : EvalContext) : Option Bool :=
  allMatch (fun block => allMatch (fun c => conditionMatches L fuel block.1 c.1 c.2 ctx) block.2) conditions

/-- The part of a statement that is decided without its conditions. -/
def applies (stmt : Statement) (ctx : EvalContext) : Bool :=
  (actionMatches L stmt.action ctx.action ||
    (!stmt.notAction.isEmpty && !actionMatches L stmt.notAction ctx.action)) &&
  (resourceMatches stmt.resource ctx.resource ||
    (!stmt.notResource.isEmpty && !resourceMatches stmt.notResource ctx.resource)) &&
  stmt.principal.all fun p => principalMatches p ctx.principal

def statementMatches (fuel : Nat) (stmt : Statement) (ctx : EvalContext) : Option Bool :=
  if applies L stmt ctx then conditionsMatch L fuel stmt.condition ctx else some false

/-! ### Evaluation -/

abbrev Test := Statement → Option Bool

/-- The first statement of one effect that matches. -/
def firstMatch (test : Test) (effect : Bytes) : List Statement → Option (Option Statement)
  | [] => some none
  | stmt :: rest =>
    if stmt.effect = effect then
      match test stmt with
      | none => none
      | some true => some (some stmt)
      | some false => firstMatch test effect rest
    else firstMatch test effect rest

/-- The first policy with an Allow statement that matches, and the statement. -/
def firstAllow (test : Test) : List (Bytes × PolicyDocument) → Option (Option (Bytes × Statement))
  | [] => some none
  | (name, doc) :: rest =>
    match firstMatch test (str "Allow") doc.statement with
    | none => none
    | some (some stmt) => some (some (name, stmt))
    | some none => firstAllow test rest

/-- One document on its own: a Deny that matches, else an Allow that matches. -/
def evaluateDocument (doc : PolicyDocument) : Option (Decision × Bytes) :=
  match firstMatch test (str "Deny") doc.statement with
  | none => none
  | some (some stmt) => some (.deny, stmt.sid)
  | some none =>
    match firstMatch test (str "Allow") doc.statement with
    | none => none
    | some (some stmt) => some (.allow, stmt.sid)
    | some none => some (.implicitDeny, [])

def evaluateBoundary (boundaryDoc : PolicyDocument) : Option (Decision × Bytes) :=
  evaluateDocument test boundaryDoc

/-- The control policy; without one everything passes. -/
def evaluateSCP (scp : Option PolicyDocument) : Option EvalResult :=
  match scp with
  | none => some ⟨.allow, [], [], [], []⟩
  | some doc =>
    match evaluateDocument test doc with
    | none => none
    | some (.deny, sid) =>
      some ⟨.deny, sid, str "scp", [], str "Denied by SCP statement '" ++ sid ++ str "'"⟩
    | some (.allow, sid) => some ⟨.allow, sid, [], [], []⟩
    | some (.implicitDeny, _) => some ⟨.deny, [], str "scp", [],
        str "Denied by Service Control Policy (no Allow statement matches)"⟩

def managedPolicies (names : List Bytes) : List (Bytes × PolicyDocument) :=
  names.filterMap fun name => (s.policies.get name).map fun doc => (name, doc)

/-- Inline policies, attached policies, and the policies of the user's groups. -/
def identityPolicies (user : IAMUser) : List (Bytes × PolicyDocument) :=
  user.inlinePolicies.map (fun doc => (doc.id, doc)) ++ managedPolicies s user.attachedPolicies ++
    user.groups.flatMap fun group =>
      match s.groups.get group with
      | none => []
      | some attached => managedPolicies s attached

def resourcePolicies : List PolicyDocument :=
  let bucketName := extractBucketFromResource ctx.resource
  if bucketName = [] then [] else (s.bucketPolicies.get bucketName).toList

/-- What the identity policies allow is still subject to the boundary, which
counts only if its policy is stored. -/
def withinBoundary (user : Option IAMUser) (allowed : EvalResult) : Option EvalResult :=
  match user with
  | none => some allowed
  | some user =>
    if user.permissionBoundary = [] then some allowed
    else
      match s.policies.get user.permissionBoundary with
      | none => some allowed
      | some doc =>
        match evaluateBoundary test doc with
        | none => none
        | some (.allow, _) => some allowed
        | some (_, sid) => some ⟨.deny, sid, str "boundary", user.permissionBoundary,
            str "Denied by permission boundary '" ++ user.permissionBoundary ++
              str "' (identity policy allows but boundary does not)"⟩

/-- Phases 1 to 5 of `Evaluate`, for the identity found in the store. -/
def evaluatePolicies (user : Option IAMUser) : Option EvalResult :=
  let identity := (user.map (identityPolicies s)).getD []
  let resource := resourcePolicies s ctx
  match firstMatch test (str "Deny") ((identity.map (·.2) ++ resource).flatMap (·.statement)) with
  | none => none
  | some (some stmt) => some ⟨.deny, stmt.sid, str "identity", [],
      str "Explicitly denied by statement '" ++ stmt.sid ++ str "'"⟩
  | some none =>
    match firstAllow test identity with
    | none => none
    | some (some (policyName, stmt)) => withinBoundary test s user
        ⟨.allow, stmt.sid, str "identity", policyName, str "Allowed by identity policy '" ++ policyName ++
          str "' statement '" ++ stmt.sid ++ str "'"⟩
    | some none =>
      match firstMatch test (str "Allow") (resource.flatMap (·.statement)) with
      | none => none
      | some (some stmt) => some ⟨.allow, stmt.sid, str "resource", [],
          str "Allowed by resource policy statement '" ++ stmt.sid ++ str "'"⟩
      | some none => some ⟨.implicitDeny, [], [], [],
          str "No matching Allow statement found (implicit deny)"⟩

/-- `PolicyEvaluator.Evaluate`. The user is looked up by the principal of the
context, as it stands. -/
def evaluate (fuel : Nat) (s : IAMStore) (ctx : EvalContext) : Option EvalResult :=
  let test : Test := fun stmt => statementMatches L fuel stmt ctx
  match evaluateSCP test s.scp with
  | none => none
  | some scp =>
    if scp.decision = .allow then evaluatePolicies test s ctx (s.users.get ctx.principal)
    else some scp

/-- `EvaluateWithBoundary`: phases 1 to 5 for a user at hand, without phase 0. -/
def evaluateWithBoundary (fuel : Nat) (s : IAMStore) (ctx : EvalContext) (user : Option IAMUser) :
    Option EvalResult :=
  evaluatePolicies (fun stmt => statementMatches L fuel stmt ctx) s ctx user

/-- Deny, then Allow, by the documents of a session and of the bucket. -/
def evaluateSession (identity resource : List PolicyDocument) : Option EvalResult :=
  match firstMatch test (str "Deny") ((identity ++ resource).flatMap (·.statement)) with
  | none => none
  | some (some stmt) => some ⟨.deny, stmt.sid, str "identity", [], []⟩
  | some none =>
    match firstMatch test (str "Allow") (identity.flatMap (·.statement)) with
    | none => none
    | some (some stmt) => some ⟨.allow, stmt.sid, str "identity", [], []⟩
    | some none =>
      match firstMatch test (str "Allow") (resource.flatMap (·.statement)) with
      | none => none
      | some (some stmt) => some ⟨.allow, stmt.sid, str "resource", [], []⟩
      | some none => some ⟨.implicitDeny, [], [], [], []⟩

/-- The documents of temporary credentials: the policies of the role that are
stored, and the policy given with the session. -/
def sessionPolicies (rolePolicies : List Bytes) (inlinePolicy : Option PolicyDocument) : List PolicyDocument :=
  (managedPolicies s rolePolicies).map (·.2) ++ inlinePolicy.toList

/-- `EvaluateWithTempCreds`. -/
def evaluateWithTempCreds (fuel : Nat) (s : IAMStore) (ctx : EvalContext)
    (rolePolicies : List Bytes) (inlinePolicy : Option PolicyDocument) : Option EvalResult :=
  evaluateSession (fun stmt => statementMatches L fuel stmt ctx) (sessionPolicies s rolePolicies inlinePolicy)
    (resourcePolicies s ctx)

end CipherLake.Iam

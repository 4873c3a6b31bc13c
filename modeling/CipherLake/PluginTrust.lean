import CipherLake.Lib.Runs
import CipherLake.Lib.Table

/-! `TrustStore`: the keys that the signatures of plugins are checked with. The
install path checks a signature over the manifest as it encodes it again, not
over the bytes that were submitted. -/
namespace CipherLake.PluginTrust
open Lib

structure TrustedKey where
  (keyID publicKey : Bytes)
  isCore : Bool
  (addedAt addedBy : Bytes)
  deriving DecidableEq

/-- What the store takes from the standard library. `verify` is `ed25519.Verify`. -/
structure Library where
  sha256 : Bytes → Bytes
  verify : (pub message sig : Bytes) → Bool
  verify_length : ∀ {pub message sig}, verify pub message sig = true → sig.length = 64
  decodeString : Bytes → Except Bytes Bytes
  quote : Bytes → Bytes

variable {lib : Library}

/-- The checks of `LoadKeys` and `AddKey`, with the public key they decode. -/
def checkKey (lib : Library) (k : TrustedKey) : Except Bytes Bytes :=
  if k.keyID = [] then .error (str "trusted key missing key_id")
  else
    match lib.decodeString k.publicKey with
    | .error e => .error (str "key " ++ lib.quote k.keyID ++ str ": invalid base64 public key: " ++ e)
    | .ok pub =>
      if pub.length ≠ 32 then
        .error (str "key " ++ lib.quote k.keyID ++ str ": ed25519 public key must be 32 bytes, got " ++
          str (toString pub.length))
      else .ok pub

/-- The maps `keys` and `pubKeys`, which are written together. -/
structure TrustStore (lib : Library) where
  keys : Table Bytes (TrustedKey × Bytes)
  filed : ∀ id k pub, keys.get id = some (k, pub) → k.keyID = id ∧ checkKey lib k = .ok pub

def trustDigest (lib : Library) (manifestJSON wasmBytes : Bytes) : Bytes := lib.sha256 (manifestJSON ++ wasmBytes)

namespace TrustStore

theorem filed_empty (id : Bytes) (k : TrustedKey) (pub : Bytes)
    (found : (Table.empty : Table Bytes (TrustedKey × Bytes)).get id = some (k, pub)) :
    k.keyID = id ∧ checkKey lib k = .ok pub := by
  cases found

def empty : TrustStore lib := ⟨Table.empty, filed_empty⟩

variable (ts : TrustStore lib)

theorem filed_put {k : TrustedKey} {pub : Bytes} (checked : checkKey lib k = .ok pub)
    (id : Bytes) (k' : TrustedKey) (pub' : Bytes) (found : (ts.keys.put k.keyID (k, pub)).get id = some (k', pub')) :
    k'.keyID = id ∧ checkKey lib k' = .ok pub' :=
  Table.forall_get_put (Q := fun id v => v.1.keyID = id ∧ checkKey lib v.1 = .ok v.2)
    (fun id v => ts.filed id v.1 v.2) ⟨rfl, checked⟩ id (k', pub') found

/-- The store with a key that passed the checks. -/
def file (k : TrustedKey) (pub : Bytes) (checked : checkKey lib k = .ok pub) : TrustStore lib :=
  ⟨ts.keys.put k.keyID (k, pub), ts.filed_put checked⟩

/-- `VerifySignature`. -/
def verifySignature (manifestJSON wasmBytes sig keyID : Bytes) : Except Bytes (Int × Bytes) :=
  if keyID = [] then .error (str "key_id is empty")
  else if sig.length ≠ 64 then
    .error (str "invalid ed25519 signature length: got " ++ str (toString sig.length) ++ str ", want 64")
  else
    match ts.keys.get keyID with
    | none => .error (str "key " ++ lib.quote keyID ++ str " is not in trusted_keys.json")
    | some (k, pub) =>
      if lib.verify pub (trustDigest lib manifestJSON wasmBytes) sig then .ok (if k.isCore then 2 else 1, keyID)
      else .error (str "signature verification failed")

/-- `DetermineEffectiveTier`. -/
def determineEffectiveTier (requestedTier : Int) (manifestJSON wasmBytes sig keyID : Bytes) :
    Except Bytes (Int × Bytes) :=
  if requestedTier < 0 ∨ 2 < requestedTier then
    .error (str "invalid trust tier requested: " ++ str (toString requestedTier))
  else if sig = [] ∨ keyID = [] then
    if requestedTier = 2 then .error (str "Tier 2 plugin requires a core signature") else .ok (0, [])
  else if ts.keys.get keyID = none then
    if requestedTier = 2 then .error (str "Tier 2 plugin signed by unknown key " ++ lib.quote keyID) else .ok (0, [])
  else
    match ts.verifySignature manifestJSON wasmBytes sig keyID with
    | .error e => .error e
    | .ok (tier, signer) =>
      if requestedTier = 2 ∧ tier < 2 then
        .error (str "plugin requested Tier 2 but signed by non-core key " ++ lib.quote signer)
      else if tier < requestedTier then .ok (tier, signer)
      else .ok (requestedTier, signer)

end TrustStore

/-- `Manifest` with its JSON form. `early` and `late` are the checks that `Validate`
makes before and after the one on the requested tier. -/
structure Schema (Manifest : Type) where
  unmarshal : Bytes → Except Bytes Manifest
  marshal : Manifest → Except Bytes Bytes
  (early late : Manifest → Except Bytes Unit)
  name : Manifest → Bytes
  trustTierRequested : Manifest → Int
  dependsOn : Manifest → List Bytes

inductive InstallError where
  | plain (text : Bytes)
  | missingDependency (plugin missing : Bytes)
  | invalidSignature (reason : Bytes)
  deriving DecidableEq

section
variable {Manifest : Type} (schema : Schema Manifest)

def validate (m : Manifest) : Except Bytes Unit := do
  schema.early m
  if schema.trustTierRequested m < 0 ∨ 2 < schema.trustTierRequested m then
    .error (str "manifest invalid: field trust_tier_requested: must be 0, 1, or 2")
  schema.late m

def parseManifest (raw : Bytes) : Except Bytes Manifest := do
  if raw = [] then .error (str "manifest is empty")
  let m ← (schema.unmarshal raw).mapError (str "failed to parse manifest JSON: " ++ ·)
  validate schema m
  return m

/-- `InstallPlugin` of the loader, up to the tier it grants. -/
def installPlugin (ts : TrustStore lib) (plugins : List Bytes) (m : Manifest) (wasmBytes signature keyID : Bytes) :
    Except InstallError (Int × Bytes) := do
  (validate schema m).mapError .plain
  if wasmBytes = [] then .error (.plain (str "wasm bytes are empty"))
  match (schema.dependsOn m).find? (· ∉ plugins) with
  | some missing => .error (.missingDependency (schema.name m) missing)
  | none =>
    let manifestJSON ← (schema.marshal m).mapError fun e => .plain (str "failed to marshal manifest: " ++ e)
    (ts.determineEffectiveTier (schema.trustTierRequested m) manifestJSON wasmBytes signature keyID).mapError
      .invalidSignature

/-- `InstallPlugin` of the admin service, for a manifest that comes with the
request. -/
def submit (ts : TrustStore lib) (plugins : List Bytes) (manifestBytes wasmBytes signature keyID : Bytes) :
    Except InstallError (Int × Bytes) := do
  if manifestBytes = [] then .error (.plain (str "manifest_bytes is required"))
  if wasmBytes = [] then .error (.plain (str "wasm_bytes is required"))
  let m ← (parseManifest schema manifestBytes).mapError fun e => .plain (str "invalid manifest: " ++ e)
  installPlugin schema ts plugins m wasmBytes signature keyID

end

section
variable {ts : TrustStore lib} {k : TrustedKey} {pub sig keyID wasmBytes json json' : Bytes} {requested : Int}

/-- Whether a signature verifies is all that the tier of a trusted key depends on. -/
theorem determineEffectiveTier_eq_iff (valid : ¬ (requested < 0 ∨ 2 < requested))
    (trusted : ts.keys.get keyID = some (k, pub)) (verified : lib.verify pub (trustDigest lib json wasmBytes) sig = true) :
    ts.determineEffectiveTier requested json' wasmBytes sig keyID =
        ts.determineEffectiveTier requested json wasmBytes sig keyID ↔
      lib.verify pub (trustDigest lib json' wasmBytes) sig = true := by
  have long := lib.verify_length verified
  have present : sig ≠ [] := by rintro rfl; cases long
  have named : keyID ≠ [] := by
    obtain ⟨same, checked⟩ := ts.filed keyID k pub trusted
    rintro rfl
    rw [checkKey, if_pos same] at checked
    cases checked
  simp only [TrustStore.determineEffectiveTier, TrustStore.verifySignature, valid, present, named, trusted, long,
    verified, or_self, reduceCtorEq, if_false, if_true, ne_eq, not_true_eq_false]
  by_cases again : lib.verify pub (trustDigest lib json' wasmBytes) sig = true
  · simp [again]
  · simp only [again, if_false, Bool.false_eq_true, iff_false]
    split_ifs <;> simp [str]

variable {Manifest : Type} {schema : Schema Manifest} {m : Manifest} {plugins : List Bytes} {submitted : Bytes}

theorem validate_tier (valid : validate schema m = .ok ()) :
    ¬ (schema.trustTierRequested m < 0 ∨ 2 < schema.trustTierRequested m) := by
  intro refused
  unfold validate at valid
  rw [if_pos refused] at valid
  cases early : schema.early m <;> rw [early] at valid <;> cases valid

theorem mapError_injective {α β γ : Type} {f : α → β} (injective : Function.Injective f) :
    Function.Injective (Except.mapError f : Except α γ → Except β γ) := by
  rintro (a | a) (b | b) same <;> simp_all [Except.mapError]
  exact injective same

theorem parseManifest_ok (parsed : parseManifest schema submitted = .ok m) :
    submitted ≠ [] ∧ validate schema m = .ok () := by
  unfold parseManifest at parsed
  by_cases empty : submitted = []
  · rw [if_pos empty] at parsed
    cases parsed
  · rw [if_neg empty] at parsed
    cases decoded : schema.unmarshal submitted with
    | error e =>
      rw [decoded] at parsed
      cases parsed
    | ok m' =>
      cases valid : validate schema m' <;>
        simp only [decoded, Except.mapError, bind, Except.bind, valid] at parsed <;> cases parsed
      exact ⟨empty, valid⟩

/-- What happens to a manifest that is parsed. -/
theorem submit_eq (parsed : parseManifest schema submitted = .ok m) :
    submit schema ts plugins submitted wasmBytes sig keyID =
      if wasmBytes = [] then .error (.plain (str "wasm_bytes is required"))
      else
        match (schema.dependsOn m).find? (· ∉ plugins), schema.marshal m with
        | some missing, _ => .error (.missingDependency (schema.name m) missing)
        | none, .error e => .error (.plain (str "failed to marshal manifest: " ++ e))
        | none, .ok encoded =>
          (ts.determineEffectiveTier (schema.trustTierRequested m) encoded wasmBytes sig keyID).mapError
            .invalidSignature := by
  obtain ⟨present, valid⟩ := parseManifest_ok parsed
  simp only [submit, installPlugin, parsed, present, valid, if_false, Except.mapError, bind, Except.bind]
  split
  · rfl
  · split
    · next missing => simp only [missing]
    · next none_ =>
      simp only [none_]
      cases schema.marshal m <;> rfl

/-- The checks that the install path makes of a valid manifest before it comes to
the signature. -/
def Ready (schema : Schema Manifest) (plugins : List Bytes) (m : Manifest) (wasmBytes : Bytes) : Prop :=
  wasmBytes ≠ [] ∧ ∀ dependency ∈ schema.dependsOn m, dependency ∈ plugins

/-- The signature is accepted, and with the tier that the submitted bytes have. -/
def Granted (schema : Schema Manifest) (ts : TrustStore lib) (plugins : List Bytes) (m : Manifest)
    (submitted wasmBytes sig keyID : Bytes) : Prop :=
  submit schema ts plugins submitted wasmBytes sig keyID =
    (ts.determineEffectiveTier (schema.trustTierRequested m) submitted wasmBytes sig keyID).mapError .invalidSignature

theorem refused_ne {α : Type} {e : InstallError} (early : ∀ reason, e ≠ .invalidSignature reason)
    (tier : Except Bytes α) : .error e ≠ tier.mapError .invalidSignature := by
  cases tier with
  | error reason => exact fun same => early reason (Except.error.inj same)
  | ok tier => rintro ⟨⟩

/-- The tier that the submitted bytes have is granted exactly if the signature
verifies over the manifest as it is encoded again. For a signature that verifies
over no other manifest, that is exactly if the manifest was submitted as it is
encoded. -/
theorem tier_granted_iff_reencoding_verifies (parsed : parseManifest schema submitted = .ok m)
    (trusted : ts.keys.get keyID = some (k, pub))
    (verified : lib.verify pub (trustDigest lib submitted wasmBytes) sig = true) :
    (Granted schema ts plugins m submitted wasmBytes sig keyID ↔ Ready schema plugins m wasmBytes ∧
        ∃ encoded, schema.marshal m = .ok encoded ∧ lib.verify pub (trustDigest lib encoded wasmBytes) sig = true) ∧
      ((∀ other, lib.verify pub (trustDigest lib other wasmBytes) sig = true → other = submitted) →
        (Granted schema ts plugins m submitted wasmBytes sig keyID ↔
          Ready schema plugins m wasmBytes ∧ schema.marshal m = .ok submitted)) := by
  refine (fun first => ⟨first, fun binding => first.trans (and_congr_right fun _ => ⟨?_, ?_⟩)⟩) ?_
  rotate_left
  · rintro ⟨encoded, encodes, again⟩
    rwa [← binding encoded again]
  · exact fun encodes => ⟨submitted, encodes, verified⟩
  rw [Granted, submit_eq parsed]
  by_cases empty : wasmBytes = []
  · rw [if_pos empty]
    exact iff_of_false (refused_ne (by rintro _ ⟨⟩) _) fun met => met.1.1 empty
  rw [if_neg empty]
  cases installed : (schema.dependsOn m).find? (· ∉ plugins) with
  | some missing =>
    have absent : missing ∉ plugins := by simpa using List.find?_some installed
    refine iff_of_false (refused_ne (by rintro _ ⟨⟩) _) fun met => absent ?_
    exact met.1.2 missing (List.mem_of_find?_eq_some installed)
  | none =>
    have ready : Ready schema plugins m wasmBytes := ⟨empty, by simpa using installed⟩
    cases encodes : schema.marshal m with
    | error e => exact iff_of_false (refused_ne (by rintro _ ⟨⟩) _) (by rintro ⟨-, encoded, ⟨⟩, -⟩)
    | ok encoded =>
      rw [(mapError_injective (fun _ _ => InstallError.invalidSignature.inj)).eq_iff,
        determineEffectiveTier_eq_iff (validate_tier (parseManifest_ok parsed).2) trusted verified]
      simp [ready]

end

namespace Sample

/-- A manifest with a blank in its text, and as `json.Marshal` writes it. -/
def spaced : Bytes := str "\x7b \"manifest_version\":\"1.0\",\"api_version\":\"^1.0.0\",\"name\":\"abc\",\"version\":\"1.0.0\"\x7d"

def marshaled : Bytes :=
  str "\x7b\"manifest_version\":\"1.0\",\"api_version\":\"^1.0.0\",\"name\":\"abc\",\"version\":\"1.0.0\",\"author\":\"\",\"description\":\"\",\"trust_tier_requested\":0\x7d"

def schema : Schema Unit where
  unmarshal raw := if raw = spaced ∨ raw = marshaled then .ok () else .error (str "unexpected end of JSON input")
  marshal _ := .ok marshaled
  early _ := .ok ()
  late _ := .ok ()
  name _ := str "abc"
  trustTierRequested _ := 0
  dependsOn _ := []

def pub : Bytes := List.replicate 32 0

/-- Digests are lengths, and a signature starts with the digest. -/
def library : Library where
  sha256 s := [s.length.toUInt8]
  verify _ message sig := sig.length = 64 && sig.take 1 = message
  verify_length verified := by simpa using (Bool.and_eq_true_iff.mp verified).1
  decodeString _ := .ok pub
  quote s := s

def key : TrustedKey := ⟨str "k1", str "AAAA", false, [], []⟩

theorem key_checked : checkKey library key = .ok pub := rfl

def store : TrustStore library := TrustStore.empty.file key pub key_checked

def signature (manifest : Bytes) : Bytes := trustDigest library manifest [0] ++ List.replicate 63 0

end Sample

open Sample

/-- A good signature over a manifest with a blank in it is refused. -/
theorem spaced_manifest_refused : parseManifest schema spaced = .ok () ∧ store.keys.get (str "k1") = some (key, pub) ∧
      library.verify pub (trustDigest library spaced [0]) (signature spaced) = true ∧
      store.determineEffectiveTier 0 spaced [0] (signature spaced) (str "k1") = .ok (0, str "k1") ∧
      submit schema store [] spaced [0] (signature spaced) (str "k1") =
        .error (.invalidSignature (str "signature verification failed")) := by
  decide +kernel

/-- The manifest as it is encoded is accepted. -/
theorem marshaled_manifest_granted : Granted schema store [] () marshaled [0] (signature marshaled) (str "k1") := by
  have verified : library.verify pub (trustDigest library marshaled [0])
      (signature marshaled) = true := by decide +kernel
  have trusted : store.keys.get (str "k1") = some (key, pub) := by decide
  refine (tier_granted_iff_reencoding_verifies (by decide +kernel) trusted verified).1.mpr ?_
  exact ⟨⟨by decide, by rintro _ ⟨⟩⟩, marshaled, rfl, verified⟩

end CipherLake.PluginTrust
